import Courier.Proofs.Memory.Declaring

/-!
# The bindings of a broker

An activity adds one binding at most, and only one that was not there, of a queue and to an exchange
that both exist (`bound_act`). As neither a queue nor an exchange goes away, the bindings of a broker
are `Sound` whatever has befallen it (`sound_after`): no two are equal, and each has its queue and its
exchange.
-/

namespace Courier.Memory

variable {m m' : Memory}

/-- The queue of the binding exists, and so does its exchange. -/
structure Binding.Grounded (m : Memory) (b : Binding) : Prop where
  queue : m.queueExists b.queue = true
  exchange : ∃ kind, m.exchangeKind b.exchange = some kind

theorem Keeps.grounded (h : Keeps m m') {b : Binding} (hb : b.Grounded m) : b.Grounded m' := by
  obtain ⟨hqueue, kind, hkind⟩ := hb
  exact ⟨h.queues _ hqueue, kind, h.exchanges _ kind hkind⟩

/-! ## One activity -/

/-- The bindings are the same, or there is one more. -/
inductive Bound (m : Memory) : List Binding → Prop where
  | same : Bound m m.bindings
  | added {b : Binding} (hgrounded : b.Grounded m) (hnew : m.hasBinding b = false) :
      Bound m (m.bindings ++ [b])

theorem bindings_of_frame (h : m'.frame = m.frame) : m'.bindings = m.bindings := by
  simpa using congrArg Memory.bindings h

theorem bindings_release (m : Memory) (channel : ChannelId) :
    (m.release channel).bindings = m.bindings := by
  unfold release
  split
  · rfl
  · split
    · rfl
    · exact (bindings_of_frame (same_notifies Notify.notifyAll _ _).frame).trans rfl

theorem bindings_publish (m : Memory) (channel : ChannelId) (publishing : Publishing)
    (options : PublishOptions) : (m.publish channel publishing options).2.bindings = m.bindings := by
  rcases publish_cases m channel publishing options with ⟨e, n, h⟩ | ⟨targets, -, h⟩
  · rw [h]
  · rw [h]
    simpa using congrArg Memory.bindings (frame_accept m publishing targets)

theorem bindings_nack (m : Memory) (delivery : DeliveryId) (requeue : Bool) :
    (answer (.nack delivery requeue) m).2.bindings = m.bindings := by
  simp only [answer]
  rcases gone_or_unsettled m delivery with hgone | ⟨d, hd, hs⟩
  · rw [nack_of_gone hgone]
    rfl
  · cases requeue with
    | true =>
      rw [requeue_of_unsettled hd hs]
      exact (bindings_of_frame (frame_requeue _ d.queue d.message)).trans rfl
    | false =>
      rw [reject_of_unsettled hd hs]
      exact (bindings_of_frame (returned_deadLetter _ d.queue d.message).frame).trans rfl

theorem bound_answer (r : Transport.Request) (m : Memory) : Bound m (answer r m).2.bindings := by
  have same : ∀ {bindings : List Binding}, bindings = m.bindings → Bound m bindings :=
    fun h => h ▸ .same
  have onOpen : ∀ {channel : ChannelId} {result : Except TransportError Memory},
      (∀ m', result = .ok m' → Bound m m'.bindings) →
      Bound m (m.onOpen channel result).2.bindings :=
    onOpen_elim (P := fun m' => Bound m m'.bindings) .same
  cases r with
  | bindQueue channel name exchange routingKey arguments =>
    refine onOpen fun m' hm => ?_
    obtain ⟨hqueue, hexchange, ⟨-, rfl⟩ | ⟨hnew, rfl⟩⟩ := bindQueue_eq_ok hm
    · exact .same
    · exact .added ⟨hqueue, Option.isSome_iff_exists.mp hexchange⟩ hnew
  | declareExchange channel name kind durable =>
    refine onOpen fun m' hm => ?_
    obtain ⟨-, rfl⟩ | ⟨-, rfl⟩ := declareExchange_eq_ok hm <;> exact .same
  | declareQueue channel declaration =>
    refine onOpen fun m' hm => ?_
    obtain ⟨-, rfl⟩ | ⟨-, rfl⟩ := declareQueue_eq_ok hm <;> exact .same
  | qos channel prefetch => exact onOpen fun m' hm => by cases hm; exact .same
  | openChannel => exact .same
  | confirmSelect channel =>
    refine unchangedOnError_elim (P := fun m' => Bound m m'.bindings) .same fun m' hm => ?_
    obtain ⟨c, -, rfl⟩ := confirmSelect_eq_ok hm
    exact .same
  | publish channel publishing options => exact same (bindings_publish m channel publishing options)
  | consume channel name exclusive =>
    simp only [answer, consume]
    cases m.openChannel? channel with
    | error e => exact .same
    | ok c => cases m.queueExists name <;> exact .same
  | close channel => exact same (bindings_release m channel)
  | dropChannel channel => exact same (bindings_release m channel)
  | dropStream stream =>
    simp only [answer, dropStream]
    split
    · exact .same
    · exact same (bindings_of_frame (same_notify m _ _).frame)
  | ack delivery =>
    simp only [answer]
    rcases gone_or_unsettled m delivery with hgone | ⟨d, hd, hs⟩
    · rw [ack_of_gone hgone]
      exact .same
    · rw [ack_of_unsettled hd hs]
      exact .same
  | nack delivery requeue => exact same (bindings_nack m delivery requeue)

theorem Drawn.bindings (h : Drawn m m') : m'.bindings = m.bindings := by
  cases h with
  | nothing hs => exact bindings_of_frame hs.frame
  | message _ hframe _ => simpa using congrArg Memory.bindings hframe

theorem bound_act (m : Memory) (activity : Activity) : Bound m (m.act activity).bindings := by
  have hdrawn := @drawn_act m activity
  cases activity with
  | request r => exact bound_answer r m
  | ask stream | look stream | lieDown stream =>
    rw [(hdrawn rfl).bindings]
    exact .same
  | failNextPublishes count => exact .same
  | passTime now => exact .same

theorem bindings_act (m : Memory) (activity : Activity) :
    m.bindings <+: (m.act activity).bindings := by
  have h := bound_act m activity
  generalize (m.act activity).bindings = bindings at h ⊢
  cases h with
  | same => exact List.prefix_refl _
  | added => exact List.prefix_append _ _

/-- The bindings of a broker stay, in their order. -/
theorem bindings_after (m : Memory) (activities : List Activity) :
    m.bindings <+: (m.after activities).bindings :=
  have hlasting : Lasting fun m' => m.bindings <+: m'.bindings :=
    fun m' activity h => h.trans (bindings_act m' activity)
  hlasting.after (List.prefix_refl _) activities

/-! ## All activities -/

/-- No two bindings are equal, and each has its queue and its exchange. -/
structure Sound (m : Memory) : Prop where
  distinct : m.bindings.Pairwise fun earlier later => ¬earlier.Equal later
  grounded : ∀ b ∈ m.bindings, b.Grounded m

theorem sound_empty : Sound {} where
  distinct := .nil
  grounded _ h := by cases h

theorem lasting_sound : Lasting Sound := by
  intro m activity h
  have kept : ∀ b ∈ m.bindings, b.Grounded (m.act activity) :=
    fun b hb => (keeps_act m activity).grounded (h.grounded b hb)
  have hbound := bound_act m activity
  generalize hbindings : (m.act activity).bindings = bindings at hbound
  cases hbound with
  | same => exact ⟨hbindings ▸ h.distinct, hbindings ▸ kept⟩
  | @added b hgrounded hnew =>
    refine ⟨?_, ?_⟩
    · rw [hbindings, List.pairwise_append]
      refine ⟨h.distinct, List.pairwise_singleton _ b, fun c hc b' hb' hequal => ?_⟩
      -- a binding that is equal to one is not added
      obtain rfl := List.mem_singleton.mp hb'
      rw [hasBinding_iff.mpr ⟨c, hc, hequal⟩] at hnew
      cases hnew
    · rw [hbindings, List.forall_mem_append, List.forall_mem_singleton]
      exact ⟨kept, (keeps_act m activity).grounded hgrounded⟩

/-- Whatever has befallen a broker, its bindings are sound. -/
theorem sound_after (activities : List Activity) : Sound (({} : Memory).after activities) :=
  lasting_sound.after sound_empty activities

end Courier.Memory
