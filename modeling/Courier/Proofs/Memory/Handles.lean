import Courier.Proofs.Memory.Conservation

/-!
# What is made at a broker

A channel, a stream and a delivery are used by whoever made them. An activity uses at most one of them
(`Activity.handle?`) and makes at most one, which there was not before (`Activity.made`, `has_made`).
Whatever happens, a channel stays open until it is closed (`isClosed_act`), and stays closed then; a
delivery that was settled stays settled (`settled_act`), and to acknowledge or refuse one settles it
(`settled_request`).
-/

namespace Courier

/-- What is made at a broker. -/
inductive Handle where
  | channel (id : ChannelId)
  | stream (id : StreamId)
  | delivery (id : DeliveryId)
  deriving DecidableEq

/-- What a request uses. -/
def Transport.Request.handle? : Transport.Request → Option Handle
  | .openChannel => none
  | .confirmSelect channel => some (.channel channel)
  | .declareExchange channel .. => some (.channel channel)
  | .declareQueue channel _ => some (.channel channel)
  | .bindQueue channel .. => some (.channel channel)
  | .qos channel _ => some (.channel channel)
  | .publish channel .. => some (.channel channel)
  | .consume channel .. => some (.channel channel)
  | .close channel => some (.channel channel)
  | .dropChannel channel => some (.channel channel)
  | .dropStream stream => some (.stream stream)
  | .ack delivery => some (.delivery delivery)
  | .nack delivery _ => some (.delivery delivery)

/-- Does the request give the channel back? -/
def Transport.Request.closes (channel : ChannelId) : Transport.Request → Bool
  | .close c => c = channel
  | .dropChannel c => c = channel
  | _ => false

/-- The delivery that a stream has given, if it has given one. -/
def Transport.Next.handle? : Transport.Next → Option Handle
  | .delivered delivery _ => some (.delivery delivery)
  | _ => none

namespace Memory

variable {m m' : Memory}

/-- What an activity uses. -/
def Activity.handle? : Activity → Option Handle
  | .request r => r.handle?
  | .ask stream => some (.stream stream)
  | .look stream => some (.stream stream)
  | .lieDown stream => some (.stream stream)
  | .failNextPublishes _ => none
  | .passTime _ => none

/-- What an activity makes. -/
def Activity.made (m : Memory) : Activity → Option Handle
  | .request .openChannel => some (.channel m.channels.length)
  | .request (.consume channel queue _) =>
    match m.consume channel queue with
    | .ok (stream, _) => some (.stream stream)
    | .error _ => none
  | .ask stream => (m.next stream).1.handle?
  | .look stream => (m.look stream).1.handle?
  | _ => none

def Activity.closes (channel : ChannelId) : Activity → Bool
  | .request r => r.closes channel
  | _ => false

theorem Activity.handle_of_polls {activity : Activity} {stream : StreamId}
    (h : activity.polls? = some stream) : activity.handle? = some (.stream stream) := by
  cases activity with
  | ask | look | lieDown => rw [Option.some.inj h.symm]; rfl
  | request | failNextPublishes | passTime => cases h

theorem Activity.closes_of_polls {activity : Activity} {stream : StreamId}
    (h : activity.polls? = some stream) (channel : ChannelId) : activity.closes channel = false := by
  cases activity with
  | request => cases h
  | _ => rfl

/-- Is it there? -/
def Has (m : Memory) : Handle → Prop
  | .channel id => id < m.channels.length
  | .stream id => id < m.streams.length
  | .delivery id => id < m.deliveries.length

/-! ## Channels -/

@[simp] theorem channels_frame (m : Memory) : m.frame.channels = m.channels := rfl

theorem channels_of_frame (h : m'.frame = m.frame) : m'.channels = m.channels := by
  simpa using congrArg Memory.channels h

/-- No channel is changed, or the one of the request is. -/
inductive Rechanneled (m : Memory) (r : Transport.Request) : List Channel → Prop where
  | same : Rechanneled m r m.channels
  | opened (h : r = .openChannel) : Rechanneled m r (m.channels ++ [({} : Channel)])
  | used {channel : ChannelId} {c c' : Channel} (hget : m.channels[channel]? = some c)
      (hclosed : c'.closed = c.closed) : Rechanneled m r (m.channels.set channel c')
  | closed {channel : ChannelId} {c : Channel} (hr : r.closes channel = true)
      (hget : m.channels[channel]? = some c) :
      Rechanneled m r (m.channels.set channel { c with closed := true })

theorem openChannel?_eq_ok {channel : ChannelId} {c : Channel} (h : m.openChannel? channel = .ok c) :
    m.channels[channel]? = some c ∧ c.closed = false := by
  unfold openChannel? at h
  split at h
  · rename_i c' hget
    split at h
    · cases h
    · rename_i hopen
      cases h
      exact ⟨hget, by simpa using hopen⟩
  · cases h

theorem rechanneled_release {r : Transport.Request} {channel : ChannelId}
    (hr : r.closes channel = true) : Rechanneled m r (m.release channel).channels := by
  unfold release
  split
  · exact .same
  · rename_i c hget
    split
    · exact .same
    · rw [channels_of_frame (same_notifies Notify.notifyAll
        { m with channels := m.channels.set channel { c with closed := true } } c.consuming).frame]
      exact .closed hr hget

theorem rechanneled_answer (r : Transport.Request) (m : Memory) :
    Rechanneled m r (answer r m).2.channels := by
  have same : ∀ {channels : List Channel}, channels = m.channels → Rechanneled m r channels :=
    fun h => h ▸ .same
  cases r with
  | openChannel => exact .opened rfl
  | confirmSelect channel =>
    refine unchangedOnError_elim (P := fun m' => Rechanneled m _ m'.channels) .same fun m' hm => ?_
    obtain ⟨c, hc, rfl⟩ := confirmSelect_eq_ok hm
    exact .used (openChannel?_eq_ok hc).1 rfl
  | declareExchange channel name kind durable =>
    refine same (onOpen_elim (P := fun m' => m'.channels = m.channels) rfl fun m' hm => ?_)
    obtain ⟨-, rfl⟩ | ⟨-, rfl⟩ := declareExchange_eq_ok hm <;> rfl
  | declareQueue channel declaration =>
    refine same (onOpen_elim (P := fun m' => m'.channels = m.channels) rfl fun m' hm => ?_)
    obtain ⟨-, rfl⟩ | ⟨-, rfl⟩ := declareQueue_eq_ok hm <;> rfl
  | bindQueue channel name exchange routingKey arguments =>
    refine same (onOpen_elim (P := fun m' => m'.channels = m.channels) rfl fun m' hm => ?_)
    obtain ⟨-, -, ⟨-, rfl⟩ | ⟨-, rfl⟩⟩ := bindQueue_eq_ok hm <;> rfl
  | qos channel prefetch =>
    refine same (onOpen_elim (P := fun m' => m'.channels = m.channels) rfl fun m' hm => ?_)
    cases hm
    rfl
  | publish channel publishing options =>
    refine same ?_
    rcases publish_cases m channel publishing options with ⟨e, n, h⟩ | ⟨targets, -, h⟩
    · simp only [answer, h]
    · simp only [answer, h]
      simpa using congrArg Memory.channels (frame_accept m publishing targets)
  | consume channel queue exclusive =>
    simp only [answer, consume]
    cases hc : m.openChannel? channel with
    | error e => exact .same
    | ok c =>
      cases m.queueExists queue with
      | false => exact .same
      | true => exact .used (openChannel?_eq_ok hc).1 rfl
  | close channel => exact rechanneled_release (decide_eq_true rfl)
  | dropChannel channel => exact rechanneled_release (decide_eq_true rfl)
  | dropStream stream =>
    refine same ?_
    simp only [answer, dropStream]
    split
    · rfl
    · exact channels_of_frame (same_notify m _ _).frame
  | ack delivery =>
    refine same ?_
    simp only [answer]
    rcases gone_or_unsettled m delivery with hgone | ⟨d, hd, hs⟩
    · rw [ack_of_gone hgone]
      rfl
    · rw [ack_of_unsettled hd hs]
      rfl
  | nack delivery requeue =>
    refine same ?_
    simp only [answer]
    rcases gone_or_unsettled m delivery with hgone | ⟨d, hd, hs⟩
    · rw [nack_of_gone hgone]
      rfl
    · cases requeue with
      | true =>
        rw [requeue_of_unsettled hd hs]
        have hframe := frame_requeue (m.settledAs delivery d (.nack true)) d.queue d.message
        exact (channels_of_frame hframe).trans rfl
      | false =>
        rw [reject_of_unsettled hd hs]
        have hframe :=
          (returned_deadLetter (m.settledAs delivery d (.nack false)) d.queue d.message).frame
        exact (channels_of_frame hframe).trans rfl

theorem Drawn.channels (h : Drawn m m') : m'.channels = m.channels := by
  cases h with
  | nothing hs => exact channels_of_frame hs.frame
  | message _ hframe _ => simpa using congrArg Memory.channels hframe

theorem isClosed_of_getElem? {channel : ChannelId} {c : Channel}
    (hget : m.channels[channel]? = some c) : m.isClosed channel = c.closed := by
  rw [isClosed, hget]

theorem isClosed_release (m : Memory) (channel : ChannelId) :
    (m.release channel).isClosed channel = true := by
  unfold release
  split
  · rename_i hnone
    rw [isClosed, hnone]
  · rename_i c hget
    split
    · rename_i hclosed
      rw [isClosed_of_getElem? hget, hclosed]
    · have hframe := (same_notifies Notify.notifyAll
        { m with channels := m.channels.set channel { c with closed := true } } c.consuming).frame
      rw [isClosed, channels_of_frame hframe,
        List.getElem?_set_self (List.getElem?_eq_some_iff.mp hget).1]

/-- A channel is closed by those who close it and by no one else. -/
theorem isClosed_answer {channel : ChannelId} (hthere : m.Has (.channel channel))
    (r : Transport.Request) :
    (answer r m).2.isClosed channel = (m.isClosed channel || r.closes channel) := by
  cases hr : r.closes channel with
  | true =>
    rw [Bool.or_true]
    cases r with
    | close c =>
      obtain rfl : c = channel := of_decide_eq_true hr
      exact isClosed_release m c
    | dropChannel c =>
      obtain rfl : c = channel := of_decide_eq_true hr
      exact isClosed_release m c
    | _ => cases hr
  | false =>
    have hlt : channel < m.channels.length := hthere
    have hchannels := rechanneled_answer r m
    rw [Bool.or_false, isClosed, isClosed]
    generalize (answer r m).2.channels = channels at hchannels
    cases hchannels with
    | same => rfl
    | opened => rw [List.getElem?_append_left hlt]
    | @used used c c' hget hclosed =>
      by_cases hc : used = channel
      · subst hc
        rw [List.getElem?_set_self hlt, hget]
        exact hclosed
      · rw [List.getElem?_set_ne hc]
    | @closed closed c hcloses hget =>
      have hc : closed ≠ channel := fun h => by
        rw [h, hr] at hcloses
        cases hcloses
      rw [List.getElem?_set_ne hc]

theorem isClosed_act {channel : ChannelId} (hthere : m.Has (.channel channel)) (activity : Activity) :
    (m.act activity).isClosed channel = (m.isClosed channel || activity.closes channel) := by
  have hdrawn := @drawn_act m activity
  cases activity with
  | request r => exact isClosed_answer hthere r
  | ask stream | look stream | lieDown stream =>
    rw [isClosed, (hdrawn rfl).channels]
    exact (Bool.or_false _).symm
  | failNextPublishes count => exact (Bool.or_false _).symm
  | passTime now => exact (Bool.or_false _).symm

/-! ## What there is -/

theorem length_channels_answer (r : Transport.Request) (m : Memory) :
    m.channels.length ≤ (answer r m).2.channels.length := by
  have hchannels := rechanneled_answer r m
  generalize (answer r m).2.channels = channels at hchannels ⊢
  cases hchannels <;> simp

/-- What there is stays. -/
theorem has_act {h : Handle} (hthere : m.Has h) (activity : Activity) : (m.act activity).Has h := by
  have hkeeps := keeps_act m activity
  cases h with
  | stream id =>
    have hlt : id < m.streams.length := hthere
    exact (List.getElem?_eq_some_iff.mp
      (hkeeps.streams id m.streams[id] (List.getElem?_eq_getElem hlt))).1
  | delivery id =>
    have hlt : id < m.deliveries.length := hthere
    obtain ⟨d, hget, -⟩ :=
      hkeeps.deliveries id m.deliveries[id] (List.getElem?_eq_getElem hlt)
    exact (List.getElem?_eq_some_iff.mp hget).1
  | channel id =>
    have hlt : id < m.channels.length := hthere
    show id < (m.act activity).channels.length
    have hdrawn := @drawn_act m activity
    cases activity with
    | request r => exact Nat.lt_of_lt_of_le hlt (length_channels_answer r m)
    | ask stream | look stream | lieDown stream =>
      rw [(hdrawn rfl).channels]
      exact hlt
    | failNextPublishes count => exact hlt
    | passTime now => exact hlt

/-- What a stream has given is the next delivery. -/
theorem Asked.handle {queue : String} {answer : Transport.Next × Memory} {h : Handle}
    (hasked : Asked m queue answer) (hgiven : answer.1.handle? = some h) :
    h = .delivery m.deliveries.length ∧ answer.2.deliveries.length = m.deliveries.length + 1 := by
  cases hasked with
  | @nothing given m' hanswer hs =>
    cases given with
    | delivered d message => exact absurd rfl (hanswer d message)
    | _ => cases hgiven
  | message hready hframe hrest =>
    cases hgiven
    have hdeliveries := congrArg (fun f : Memory => f.deliveries.length) hframe
    exact ⟨rfl, by simpa using hdeliveries⟩

/-- An activity of a stream makes the next delivery, or nothing. -/
theorem made_of_polls {activity : Activity} {stream : StreamId} {h : Handle}
    (hpolls : activity.polls? = some stream) (hmade : activity.made m = some h) :
    h = .delivery m.deliveries.length ∧
      (m.act activity).deliveries.length = m.deliveries.length + 1 := by
  cases activity with
  | ask id =>
    rw [Activity.made] at hmade
    cases hs : m.streams[id]? with
    | none =>
      rw [next_of_none hs] at hmade
      cases hmade
    | some s => exact (next_asked hs).handle hmade
  | look id =>
    rw [Activity.made] at hmade
    cases hs : m.streams[id]? with
    | none =>
      rw [look_of_none hs] at hmade
      cases hmade
    | some s => exact (look_asked hs).handle hmade
  | lieDown id => cases hmade
  | request r => cases hpolls
  | failNextPublishes count => cases hpolls
  | passTime now => cases hpolls

theorem consume_eq_ok {channel : ChannelId} {queue : String} {stream : StreamId}
    (h : m.consume channel queue = .ok (stream, m')) :
    stream = m.streams.length ∧ m'.streams = m.streams ++ [⟨channel, queue⟩] ∧
      m.isClosed channel = false := by
  unfold consume at h
  cases hc : m.openChannel? channel with
  | error e =>
    rw [hc] at h
    cases h
  | ok c =>
    obtain ⟨hget, hopen⟩ := openChannel?_eq_ok hc
    rw [hc] at h
    simp only [bind, Except.bind] at h
    split at h <;> cases h
    exact ⟨rfl, rfl, (isClosed_of_getElem? hget).trans hopen⟩

/-- What is made was not there before, and is there then. -/
theorem has_made {activity : Activity} {h : Handle} (hmade : activity.made m = some h) :
    ¬m.Has h ∧ (m.act activity).Has h := by
  have hdelivery : ∀ {stream}, activity.polls? = some stream →
      ¬m.Has h ∧ (m.act activity).Has h := fun hpolls => by
    obtain ⟨rfl, hlength⟩ := made_of_polls hpolls hmade
    refine ⟨Nat.lt_irrefl _, ?_⟩
    show m.deliveries.length < (m.act activity).deliveries.length
    rw [hlength]
    exact Nat.lt_succ_self _
  cases activity with
  | ask stream | look stream | lieDown stream => exact hdelivery rfl
  | failNextPublishes count => cases hmade
  | passTime now => cases hmade
  | request r =>
    cases r with
    | openChannel =>
      cases hmade
      refine ⟨Nat.lt_irrefl _, ?_⟩
      show m.channels.length < (m.channels ++ [({} : Channel)]).length
      simp
    | consume channel queue exclusive =>
      simp only [Activity.made] at hmade
      split at hmade
      · rename_i stream m' hconsume
        cases hmade
        obtain ⟨rfl, hstreams, -⟩ := consume_eq_ok hconsume
        refine ⟨Nat.lt_irrefl _, ?_⟩
        simp only [act, answer, hconsume]
        show m.streams.length < m'.streams.length
        rw [hstreams]
        simp
      · cases hmade
    | _ => cases hmade

/-! ## Settled deliveries -/

/-- It has been delivered and settled. -/
def Settled (m : Memory) (delivery : DeliveryId) : Prop :=
  ∃ d, m.deliveries[delivery]? = some d ∧ d.settled = true

section Settled

variable (hknown : ∀ d ∈ m.deliveries, m.queueExists d.queue = true)

include hknown

/-- A delivery stays what it is, and settled if it is. -/
theorem delivery_act {delivery : DeliveryId} {d : Delivery}
    (hget : m.deliveries[delivery]? = some d) (activity : Activity) :
    ∃ d', (m.act activity).deliveries[delivery]? = some d' ∧ d'.queue = d.queue ∧
      (d.settled = true → d'.settled = true) := by
  have hlt : delivery < m.deliveries.length := (List.getElem?_eq_some_iff.mp hget).1
  have hentered := entered hknown {} activity
  generalize m.act activity = m', ({} : Account).note m activity = a' at hentered
  cases hentered with
  | idle hready hu => exact ⟨d, hu.deliveries ▸ hget, rfl, id⟩
  | sent copies hready hu => exact ⟨d, hu.deliveries ▸ hget, rfl, id⟩
  | taken hexists hname hother hu =>
    refine ⟨d, ?_, rfl, id⟩
    rw [hu.deliveries]
    exact (List.getElem?_append_left hlt).trans hget
  | @settled delivery' d' outcome copies hd hs hready hu =>
    rw [hu.deliveries]
    by_cases hi : delivery' = delivery
    · subst hi
      obtain rfl := Option.some.inj (hd.symm.trans hget)
      exact ⟨_, getElem?_settledAs_self hd outcome, rfl, fun _ => rfl⟩
    · exact ⟨d, (getElem?_settledAs_of_ne hi outcome).trans hget, rfl, id⟩

/-- What was settled stays settled. -/
theorem settled_act {delivery : DeliveryId} (h : m.Settled delivery) (activity : Activity) :
    (m.act activity).Settled delivery := by
  obtain ⟨d, hget, hsettled⟩ := h
  obtain ⟨d', hget', -, hkept⟩ := delivery_act hknown hget activity
  exact ⟨d', hget', hkept hsettled⟩

/-- To acknowledge or refuse a delivery settles it, if it was not settled before. -/
theorem settled_request {delivery : DeliveryId} (hthere : m.Has (.delivery delivery))
    {r : Transport.Request} (hr : r = .ack delivery ∨ ∃ requeue, r = .nack delivery requeue) :
    (m.act (.request r)).Settled delivery := by
  rcases gone_or_unsettled m delivery with hgone | ⟨d, hd, hs⟩
  · exact settled_act hknown
      ⟨_, List.getElem?_eq_getElem hthere, hgone _ (List.getElem?_eq_getElem hthere)⟩ _
  · have hself : ∀ outcome, ∀ {m' : Memory}, Untouched (m.settledAs delivery d outcome) m' →
        m'.Settled delivery := fun outcome m' hu =>
      ⟨_, hu.deliveries ▸ getElem?_settledAs_self hd outcome, rfl⟩
    rcases hr with rfl | ⟨requeue, rfl⟩
    · simp only [act, answer]
      rw [ack_of_unsettled hd hs]
      exact hself .ack ⟨rfl, rfl⟩
    · simp only [act, answer]
      cases requeue with
      | true =>
        rw [requeue_of_unsettled hd hs]
        exact hself (.nack true) (.of_frame (frame_requeue _ _ _))
      | false =>
        rw [reject_of_unsettled hd hs]
        exact hself (.nack false) (.of_frame (returned_deadLetter _ _ _).frame)

end Settled

end Memory

end Courier
