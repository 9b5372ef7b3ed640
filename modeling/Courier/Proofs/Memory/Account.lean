import Courier.Proofs.Memory.Activities

/-!
# An account of the copies of messages

A broker tells of a message where it lies now, and not where it has come from. An account keeps that
for all queues: which copies have been put into which queue by publishes and dead letters, and which
deliveries have been settled, how, and with which message. `Account.note` reads it off the answers of
the broker, and `entered` says what can come of one activity, for the broker and the account together.
-/

namespace Courier

namespace Memory

variable {m m' : Memory} {queue : String}

/-! ## Copies -/

/-- The copies among these that went to a queue. -/
def copiesTo (queue : String) (copies : List (String × Message)) : List Message :=
  (copies.filter (·.1 == queue)).map (·.2)

@[simp] theorem copiesTo_nil (queue : String) : copiesTo queue [] = [] := rfl

@[simp] theorem copiesTo_append (queue : String) (copies more : List (String × Message)) :
    copiesTo queue (copies ++ more) = copiesTo queue copies ++ copiesTo queue more := by
  simp [copiesTo]

theorem mem_copiesTo {message : Message} {copies : List (String × Message)} :
    message ∈ copiesTo queue copies ↔ (queue, message) ∈ copies := by
  simp [copiesTo]

theorem copiesTo_targets (queue : String) (targets : List String) (message : Message) :
    copiesTo queue (targets.map fun target => (target, message)) =
      List.replicate (targets.count queue) message := by
  rw [copiesTo, List.filter_map, List.map_map, List.count_eq_length_filter]
  exact List.map_const'

/-- The copies that a publishing is put into queues as. -/
def publishedCopies (m : Memory) (publishing : Publishing) : List (String × Message) :=
  match m.route publishing.destination with
  | .error _ => []
  | .ok targets => targets.map fun target => (target, m.copy publishing)

/-- The copies that a message of a queue is sent on as when it is rejected. -/
def deadLetters (m : Memory) (queue : String) (message : Message) : List (String × Message) :=
  match (m.queue? queue).bind (·.deadLetterDestination message) with
  | none => []
  | some destination =>
    match m.route destination with
    | .error _ => []
    | .ok targets =>
      targets.map fun target => (target, { message with
        info := { message.info with
          exchange := destination.exchange
          routingKey := destination.routingKey } })

/-! ## Accounts -/

/-- What became of a delivery. -/
structure Settlement where
  delivery : DeliveryId
  queue : String
  message : Message
  outcome : Outcome

/-- What the broker writes down of it. -/
def Settlement.record (s : Settlement) : AckRecord :=
  ⟨s.queue, s.message.info.routingKey, s.message.info.messageId, s.outcome⟩

/-- The message is gone from its queue. -/
def Settlement.consumes (s : Settlement) : Bool :=
  s.outcome != .nack true

/-- An account of the copies of messages. -/
structure Account where
  /-- Every copy that was put into a queue by a publish or as a dead letter, in order. -/
  sent : List (String × Message) := []
  /-- Every settlement that was answered with success, in order. -/
  settled : List Settlement := []

namespace Account

/-- The messages of a queue that were acknowledged or rejected. -/
def consumed (a : Account) (queue : String) : List Message :=
  (a.settled.filter fun s => s.queue == queue && s.consumes).map (·.message)

/-- Note that a delivery was settled, if it was. -/
def noteSettled (a : Account) (m : Memory) (delivery : DeliveryId) (outcome : Outcome)
    (answer : Except TransportError Memory) : Account :=
  match answer, m.deliveries[delivery]? with
  | .ok _, some d => {
      sent := a.sent ++ if outcome = .nack false then m.deadLetters d.queue d.message else []
      settled := a.settled ++ [⟨delivery, d.queue, d.message, outcome⟩] }
  | _, _ => a

/-- Note what an activity is answered. -/
def note (a : Account) (m : Memory) : Activity → Account
  | .request (.publish channel publishing options) =>
    match (m.publish channel publishing options).1 with
    | .ok () => { a with sent := a.sent ++ m.publishedCopies publishing }
    | .error _ => a
  | .request (.ack delivery) => a.noteSettled m delivery .ack (m.ack delivery)
  | .request (.nack delivery requeue) =>
    a.noteSettled m delivery (.nack requeue) (m.nack delivery requeue)
  | _ => a

/-- Note what activities are answered, one after another. -/
def noteAll (a : Account) (m : Memory) : List Activity → Account
  | [] => a
  | activity :: activities => (a.note m activity).noteAll (m.act activity) activities

end Account

/-! ## Settling -/

/-- A delivery has been settled. -/
def settledAs (m : Memory) (delivery : DeliveryId) (d : Delivery) (outcome : Outcome) : Memory :=
  { m with
    deliveries := m.deliveries.set delivery { d with settled := true }
    acknowledgements := m.acknowledgements ++
      [(⟨delivery, d.queue, d.message, outcome⟩ : Settlement).record] }

section Settle

variable {delivery : DeliveryId} {d : Delivery}

theorem settle_of_unsettled (hd : m.deliveries[delivery]? = some d) (hs : d.settled = false)
    (outcome : Outcome) :
    m.settle delivery outcome = .ok (d, m.settledAs delivery d outcome) := by
  simp only [settle, hd, hs, Bool.false_eq_true, if_false]
  rfl

/-- There is no such delivery any more. -/
def Gone (m : Memory) (delivery : DeliveryId) : Prop :=
  ∀ d, m.deliveries[delivery]? = some d → d.settled = true

theorem settle_of_gone (h : m.Gone delivery) (outcome : Outcome) :
    m.settle delivery outcome = .error (.settle "delivery already settled") := by
  unfold settle
  split
  · rfl
  · rename_i d hd
    rw [if_pos (h d hd)]

theorem ack_of_gone (h : m.Gone delivery) :
    m.ack delivery = .error (.settle "delivery already settled") := by
  rw [ack, settle_of_gone h]
  rfl

theorem nack_of_gone (h : m.Gone delivery) (requeue : Bool) :
    m.nack delivery requeue = .error (.settle "delivery already settled") := by
  rw [nack, settle_of_gone h]
  rfl

theorem gone_or_unsettled (m : Memory) (delivery : DeliveryId) :
    m.Gone delivery ∨ ∃ d, m.deliveries[delivery]? = some d ∧ d.settled = false := by
  cases hd : m.deliveries[delivery]? with
  | none => exact .inl fun d h => by rw [hd] at h; cases h
  | some d =>
    cases hs : d.settled with
    | false => exact .inr ⟨d, rfl, hs⟩
    | true => exact .inl fun d' h => by rw [hd] at h; cases h; exact hs

theorem ack_of_unsettled (hd : m.deliveries[delivery]? = some d) (hs : d.settled = false) :
    m.ack delivery = .ok (m.settledAs delivery d .ack) := by
  rw [ack, settle_of_unsettled hd hs]
  rfl

theorem requeue_of_unsettled (hd : m.deliveries[delivery]? = some d) (hs : d.settled = false) :
    m.nack delivery true = .ok ((m.settledAs delivery d (.nack true)).requeue d.queue d.message) := by
  rw [nack, settle_of_unsettled hd hs]
  rfl

theorem reject_of_unsettled (hd : m.deliveries[delivery]? = some d) (hs : d.settled = false) :
    m.nack delivery false =
      .ok ((m.settledAs delivery d (.nack false)).deadLetter d.queue d.message) := by
  rw [nack, settle_of_unsettled hd hs]
  rfl

end Settle

/-! ## Requests that settle nothing -/

end Memory

/-- Is it a request that settles a delivery? -/
def Transport.Request.settles : Transport.Request → Bool
  | .ack _ => true
  | .nack .. => true
  | _ => false

namespace Memory

variable {m m' : Memory} {queue : String}

/-- Deliveries and records are as they were. -/
structure Untouched (m m' : Memory) : Prop where
  deliveries : m'.deliveries = m.deliveries
  acknowledgements : m'.acknowledgements = m.acknowledgements

theorem Untouched.of_frame (h : m'.frame = m.frame) : Untouched m m' where
  deliveries := show m'.frame.deliveries = m.frame.deliveries by rw [h]
  acknowledgements := show m'.frame.acknowledgements = m.frame.acknowledgements by rw [h]

theorem untouched_release (m : Memory) (channel : ChannelId) : Untouched m (m.release channel) := by
  unfold release
  split
  · exact ⟨rfl, rfl⟩
  · split
    · exact ⟨rfl, rfl⟩
    · rename_i c _ _
      have h := Untouched.of_frame (same_notifies Notify.notifyAll
        { m with channels := m.channels.set channel { c with closed := true } } c.consuming).frame
      exact ⟨h.deliveries, h.acknowledgements⟩

theorem untouched_publish (m : Memory) (channel : ChannelId) (publishing : Publishing)
    (options : PublishOptions) : Untouched m (m.publish channel publishing options).2 := by
  rcases publish_cases m channel publishing options with ⟨e, n, h⟩ | ⟨targets, -, h⟩
  · rw [h]
    exact ⟨rfl, rfl⟩
  · rw [h]
    have hu : Untouched
        { m with
          published := m.published ++ [publishing]
          lastMessageId := m.lastMessageId + 1 }
        (m.accept publishing targets) := .of_frame (frame_accept m publishing targets)
    exact ⟨hu.deliveries, hu.acknowledgements⟩

theorem untouched_answer {r : Transport.Request} (h : r.settles = false) (m : Memory) :
    Untouched m (answer r m).2 := by
  cases r with
  | ack delivery => cases h
  | nack delivery requeue => cases h
  | publish channel publishing options => exact untouched_publish m channel publishing options
  | openChannel => exact ⟨rfl, rfl⟩
  | close channel => exact untouched_release m channel
  | dropChannel channel => exact untouched_release m channel
  | qos channel prefetch => exact onOpen_elim ⟨rfl, rfl⟩ fun m' hm => by cases hm; exact ⟨rfl, rfl⟩
  | confirmSelect channel =>
    refine unchangedOnError_elim ⟨rfl, rfl⟩ fun m' hm => ?_
    obtain ⟨c, -, rfl⟩ := confirmSelect_eq_ok hm
    exact ⟨rfl, rfl⟩
  | consume channel name exclusive =>
    simp only [answer, consume]
    cases m.openChannel? channel with
    | error e => exact ⟨rfl, rfl⟩
    | ok c => cases m.queueExists name <;> exact ⟨rfl, rfl⟩
  | dropStream stream =>
    simp only [answer, dropStream]
    split
    · exact ⟨rfl, rfl⟩
    · exact .of_frame (same_notify m _ _).frame
  | declareExchange channel name kind durable =>
    refine onOpen_elim ⟨rfl, rfl⟩ fun m' hm => ?_
    obtain ⟨-, rfl⟩ | ⟨-, rfl⟩ := declareExchange_eq_ok hm <;> exact ⟨rfl, rfl⟩
  | declareQueue channel declaration =>
    refine onOpen_elim ⟨rfl, rfl⟩ fun m' hm => ?_
    obtain ⟨-, rfl⟩ | ⟨-, rfl⟩ := declareQueue_eq_ok hm <;> exact ⟨rfl, rfl⟩
  | bindQueue channel name exchange routingKey arguments =>
    refine onOpen_elim ⟨rfl, rfl⟩ fun m' hm => ?_
    obtain ⟨-, -, ⟨-, rfl⟩ | ⟨-, rfl⟩⟩ := bindQueue_eq_ok hm <;> exact ⟨rfl, rfl⟩

/-! ## What an activity adds -/

/-- What an activity does to a broker and to the account. -/
inductive Entered (m : Memory) (a : Account) : Memory → Account → Prop where
  | idle {m' : Memory} (hready : ∀ queue, m'.ready queue = m.ready queue) (hu : Untouched m m') :
      Entered m a m' a
  /-- A message was put into queues. -/
  | sent {m' : Memory} (copies : List (String × Message))
      (hready : ∀ queue, m'.ready queue = m.ready queue ++ copiesTo queue copies)
      (hu : Untouched m m') : Entered m a m' { a with sent := a.sent ++ copies }
  /-- The next message of a queue was delivered. -/
  | taken {m' : Memory} {name : String} {message : Message} (hexists : m.queueExists name = true)
      (hname : m.ready name = message :: m'.ready name)
      (hother : ∀ queue ≠ name, m'.ready queue = m.ready queue)
      (hu : Untouched { m with deliveries := m.deliveries ++ [⟨name, message, false⟩] } m') :
      Entered m a m' a
  /-- A delivery was settled: its message was put back, sent on, or neither. -/
  | settled {m' : Memory} {delivery : DeliveryId} {d : Delivery} (outcome : Outcome)
      (copies : List (String × Message)) (hd : m.deliveries[delivery]? = some d)
      (hs : d.settled = false)
      (hready : ∀ queue, m'.ready queue =
        (if outcome = .nack true ∧ queue = d.queue then [d.message] else []) ++ m.ready queue ++
          copiesTo queue copies)
      (hu : Untouched (m.settledAs delivery d outcome) m') :
      Entered m a m' {
        sent := a.sent ++ copies
        settled := a.settled ++ [⟨delivery, d.queue, d.message, outcome⟩] }

/-- A message is put into queues that exist. -/
theorem queueExists_of_route {destination : Destination} {targets : List String}
    (h : m.route destination = .ok targets) : ∀ target ∈ targets, m.queueExists target = true := by
  unfold route at h
  intro target htarget
  split at h
  · cases h
    split at htarget
    · rw [List.mem_singleton.mp htarget]
      assumption
    · cases htarget
  · split at h
    · cases h
    · cases h
      exact (List.mem_filter.mp htarget).2

theorem ready_pushes {targets : List String} (message : Message)
    (h : ∀ target ∈ targets, m.queueExists target = true) (queue : String) :
    (targets.foldl (fun m target => m.push target message) m).ready queue =
      m.ready queue ++ copiesTo queue (targets.map fun target => (target, message)) := by
  rw [ready, ready?_pushes, copiesTo_targets]
  cases hq : m.ready? queue with
  | some messages => simp [ready, hq]
  | none =>
    have hnone : targets.count queue = 0 := List.count_eq_zero.mpr fun hmem => by
      have := h queue hmem
      rw [← isSome_ready?, hq] at this
      cases this
    simp [ready, hq, hnone]

theorem ready_deadLetter (m : Memory) (name : String) (message : Message) (queue : String) :
    (m.deadLetter name message).ready queue =
      m.ready queue ++ copiesTo queue (m.deadLetters name message) := by
  unfold deadLetter deadLetters
  cases (m.queue? name).bind (·.deadLetterDestination message) with
  | none => simp
  | some destination =>
    cases hroute : m.route destination with
    | error e => simp [hroute]
    | ok targets => simp only [hroute, ready_pushes _ (queueExists_of_route hroute)]

theorem ready_requeue {name : String} (message : Message) (h : m.queueExists name = true)
    (queue : String) :
    (m.requeue name message).ready queue =
      (if queue = name then [message] else []) ++ m.ready queue := by
  rw [ready, ready?_requeue]
  split
  · rename_i hname
    subst hname
    rw [← isSome_ready?, Option.isSome_iff_exists] at h
    obtain ⟨messages, hq⟩ := h
    simp [ready, hq]
  · rfl

theorem entered_publish (m : Memory) (a : Account) (channel : ChannelId) (publishing : Publishing)
    (options : PublishOptions) :
    Entered m a (m.act (.request (.publish channel publishing options)))
      (a.note m (.request (.publish channel publishing options))) := by
  have hu := untouched_publish m channel publishing options
  simp only [act, answer, Account.note]
  rcases publish_cases m channel publishing options with ⟨e, n, h⟩ | ⟨targets, hroute, h⟩
  · rw [h] at hu ⊢
    exact .idle (fun _ => rfl) hu
  · rw [h] at hu ⊢
    refine .sent (m.publishedCopies publishing) (fun queue => ?_) hu
    rw [publishedCopies, hroute]
    have hexists : ∀ target ∈ targets, queueExists
        { m with
          published := m.published ++ [publishing]
          lastMessageId := m.lastMessageId + 1 }
        target = true := queueExists_of_route hroute
    exact ready_pushes (m.copy publishing) hexists queue

theorem entered_ack (m : Memory) (a : Account) (delivery : DeliveryId) :
    Entered m a (m.act (.request (.ack delivery))) (a.note m (.request (.ack delivery))) := by
  simp only [act, answer, Account.note, Account.noteSettled]
  rcases gone_or_unsettled m delivery with hgone | ⟨d, hd, hs⟩
  · rw [ack_of_gone hgone]
    exact .idle (fun _ => rfl) ⟨rfl, rfl⟩
  · rw [ack_of_unsettled hd hs]
    simp only [hd]
    exact .settled .ack _ hd hs (fun queue => by simp; rfl) ⟨rfl, rfl⟩

theorem entered_nack (hknown : ∀ d ∈ m.deliveries, m.queueExists d.queue = true) (a : Account)
    (delivery : DeliveryId) (requeue : Bool) :
    Entered m a (m.act (.request (.nack delivery requeue)))
      (a.note m (.request (.nack delivery requeue))) := by
  simp only [act, answer, Account.note, Account.noteSettled]
  rcases gone_or_unsettled m delivery with hgone | ⟨d, hd, hs⟩
  · rw [nack_of_gone hgone]
    exact .idle (fun _ => rfl) ⟨rfl, rfl⟩
  · cases requeue with
    | true =>
      rw [requeue_of_unsettled hd hs]
      simp only [hd]
      refine .settled (.nack true) _ hd hs (fun queue => ?_) (.of_frame (frame_requeue _ _ _))
      have hexists : (m.settledAs delivery d (.nack true)).queueExists d.queue = true :=
        hknown d (List.mem_of_getElem? hd)
      exact (ready_requeue d.message hexists queue).trans (by simp; rfl)
    | false =>
      rw [reject_of_unsettled hd hs]
      simp only [hd]
      refine .settled (.nack false) _ hd hs (fun queue => ?_)
        (.of_frame (returned_deadLetter _ _ _).frame)
      exact (ready_deadLetter _ d.queue d.message queue).trans (by simp; rfl)

theorem Drawn.entered (h : Drawn m m') (a : Account) : Entered m a m' a := by
  cases h with
  | nothing hs => exact .idle (fun queue => by rw [ready, hs.ready]; rfl) (.of_frame hs.frame)
  | @message name message rest _ hready hframe hrest =>
    have hexists : m.queueExists name = true := by
      rw [← isSome_ready?, hready]
      rfl
    have hname : m.ready name = message :: m'.ready name := by simp [ready, hready, hrest]
    refine .taken hexists hname (fun queue hne => ?_) (.of_frame hframe)
    simp [ready, hrest, hne]

/-- What one activity can do. -/
theorem entered (hknown : ∀ d ∈ m.deliveries, m.queueExists d.queue = true) (a : Account)
    (activity : Activity) : Entered m a (m.act activity) (a.note m activity) := by
  have hdrawn := @drawn_act m activity
  cases activity with
  | failNextPublishes count => exact .idle (fun _ => rfl) ⟨rfl, rfl⟩
  | passTime now => exact .idle (fun _ => rfl) ⟨rfl, rfl⟩
  | ask stream | look stream | lieDown stream => exact (hdrawn rfl).entered a
  | request r =>
    have quiet : ∀ {r : Transport.Request}, r.isPublish = false → r.settles = false →
        Entered m a (answer r m).2 a := fun {r} hp hs =>
      have hr : r.isRefusal = false := by cases r <;> first | rfl | cases hs
      .idle (fun queue => (answer_change hp hr m).ready queue) (untouched_answer hs m)
    cases r with
    | publish channel publishing options => exact entered_publish m a channel publishing options
    | ack delivery => exact entered_ack m a delivery
    | nack delivery requeue => exact entered_nack hknown a delivery requeue
    | _ => exact quiet rfl rfl

end Memory

end Courier
