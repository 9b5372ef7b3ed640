import Courier.Proofs.Memory.Conservation

/-!
# One message at a time

If of a queue at most one delivery is unsettled at any time, its messages are settled in the order in
which they were put into it, each of them as often as it takes: a message that is put back goes to
the front and is delivered again before the next one. The settlements of the queue are then blocks,
one for each message (`Block`), and only the last may lack its end (`InTurn`). `InTurn.step` is one
activity.
-/

namespace Courier.Memory

variable {m m' : Memory} {a a' : Account} {queue : String}

/-! ## Blocks -/

/-- What is written down when a message of a queue is settled. -/
def recordOf (queue : String) (message : Message) (outcome : Outcome) : AckRecord :=
  ⟨queue, message.info.routingKey, message.info.messageId, outcome⟩

/-- The settlements of one message: it is put back any number of times, and then it is gone. -/
structure Block where
  message : Message
  /-- How often it was put back. -/
  requeues : Nat
  last : Outcome
  consumes : last ≠ .nack true

def Block.records (queue : String) (b : Block) : List AckRecord :=
  List.replicate b.requeues (recordOf queue b.message (.nack true)) ++
    [recordOf queue b.message b.last]

/-- It is delivered once for each of its settlements. -/
def Block.delivered (b : Block) : List Message :=
  List.replicate (b.requeues + 1) b.message

/-- The messages of a queue that are not gone: those that are delivered, and those that are ready. -/
def pending (m : Memory) (queue : String) : List Message :=
  m.unsettled queue ++ m.ready queue

/-- The messages of a queue in the order of their deliveries. -/
def delivered (m : Memory) (queue : String) : List Message :=
  (m.deliveries.filter (·.queue == queue)).map (·.message)

/-- The settlements of a queue that are written down. -/
def recorded (m : Memory) (queue : String) : List AckRecord :=
  m.acknowledgements.filter (·.queue == queue)

/-- The settlements of a queue are blocks, one for each message in the order in which they were put
into it. The first message that is not gone may have been put back already. -/
structure InTurn (m : Memory) (a : Account) (queue : String) (blocks : List Block) (tries : Nat) :
    Prop where
  appended : copiesTo queue a.sent = blocks.map (·.message) ++ m.pending queue
  records : m.recorded queue = blocks.flatMap (·.records queue) ++
    ((m.pending queue).take 1).flatMap fun message =>
      List.replicate tries (recordOf queue message (.nack true))
  /-- A message that was put back is the next to be delivered. -/
  delivered : m.delivered queue = blocks.flatMap Block.delivered ++
    ((m.pending queue).take 1).flatMap (List.replicate tries) ++ m.unsettled queue
  one : (m.unsettled queue).length ≤ 1
  /-- Where there is no message none was put back. -/
  tries : m.pending queue = [] → tries = 0

variable {blocks : List Block} {tries : Nat}

theorem inTurn_empty (queue : String) : InTurn {} {} queue [] 0 where
  appended := rfl
  records := rfl
  delivered := rfl
  one := Nat.zero_le 1
  tries _ := rfl

/-! ## Activities -/

theorem Untouched.delivered (hu : Untouched m m') (queue : String) :
    m'.delivered queue = m.delivered queue := by
  rw [Memory.delivered, hu.deliveries, Memory.delivered]

theorem Untouched.recorded (hu : Untouched m m') (queue : String) :
    m'.recorded queue = m.recorded queue := by
  rw [Memory.recorded, hu.acknowledgements, Memory.recorded]

theorem delivered_deliver (m : Memory) (name : String) (message : Message) (queue : String) :
    delivered { m with deliveries := m.deliveries ++ [⟨name, message, false⟩] } queue =
      m.delivered queue ++ if name = queue then [message] else [] := by
  simp only [delivered, List.filter_append, List.map_append, List.filter_cons, List.filter_nil]
  by_cases h : name = queue <;> simp [h]

section Settled

variable {delivery : DeliveryId} {d : Delivery}

theorem delivered_settledAs (hd : m.deliveries[delivery]? = some d) (outcome : Outcome)
    (queue : String) : (m.settledAs delivery d outcome).delivered queue = m.delivered queue := by
  obtain ⟨before, after, hsplit, hsettled⟩ := settledAs_split hd outcome
  rw [delivered, delivered, hsettled, hsplit]
  simp only [List.filter_append, List.map_append, List.filter_cons]
  split <;> rfl

theorem recorded_settledAs (m : Memory) (delivery : DeliveryId) (d : Delivery) (outcome : Outcome)
    (queue : String) : (m.settledAs delivery d outcome).recorded queue =
      m.recorded queue ++ if d.queue = queue then [recordOf queue d.message outcome] else [] := by
  simp only [recorded, settledAs, List.filter_append, Settlement.record]
  by_cases h : d.queue = queue <;> simp [h, recordOf]

end Settled

/-- The queue is as it was, but that it may have got more messages at its end. -/
theorem InTurn.extend (h : InTurn m a queue blocks tries) {more : List Message}
    (hsent : copiesTo queue a'.sent = copiesTo queue a.sent ++ more)
    (hready : m'.ready queue = m.ready queue ++ more)
    (hunsettled : m'.unsettled queue = m.unsettled queue)
    (hdelivered : m'.delivered queue = m.delivered queue)
    (hrecorded : m'.recorded queue = m.recorded queue) : InTurn m' a' queue blocks tries := by
  have hpending : m'.pending queue = m.pending queue ++ more := by
    rw [pending, hunsettled, hready, pending, List.append_assoc]
  -- a message that was not there before has not been put back
  have hfirst : ∀ {β : Type} (f : Message → List β), (tries = 0 → ∀ message, f message = []) →
      ((m'.pending queue).take 1).flatMap f = ((m.pending queue).take 1).flatMap f := by
    intro β f hf
    rw [hpending]
    cases hp : m.pending queue with
    | nil => simp [hf (h.tries hp)]
    | cons message rest => rfl
  refine ⟨?_, ?_, ?_, hunsettled ▸ h.one, fun hnone => h.tries ?_⟩
  · rw [hsent, h.appended, hpending, List.append_assoc]
  · rw [hrecorded, h.records, hfirst _ fun hzero => by simp [hzero]]
  · rw [hdelivered, h.delivered, hunsettled, hfirst _ fun hzero => by simp [hzero]]
  · rw [hpending, List.append_eq_nil_iff] at hnone
    exact hnone.1

/-- The next message is delivered. -/
theorem InTurn.take (h : InTurn m a queue blocks tries) {message : Message}
    (hnone : m.unsettled queue = []) (hready : m.ready queue = message :: m'.ready queue)
    (hunsettled : m'.unsettled queue = [message])
    (hdelivered : m'.delivered queue = m.delivered queue ++ [message])
    (hrecorded : m'.recorded queue = m.recorded queue) : InTurn m' a queue blocks tries := by
  have hpending : m'.pending queue = m.pending queue := by
    rw [pending, hunsettled, pending, hnone, hready]
    rfl
  refine ⟨hpending ▸ h.appended, ?_, ?_, ?_, hpending ▸ h.tries⟩
  · rw [hrecorded, h.records, hpending]
  · rw [hdelivered, h.delivered, hpending, hunsettled, hnone, List.append_nil]
  · rw [hunsettled]
    exact Nat.le_refl 1

/-- The message that is delivered is settled: it is put back, or its block is complete. -/
theorem InTurn.settle (h : InTurn m a queue blocks tries) {message : Message} {outcome : Outcome}
    {more : List Message} (hone : m.unsettled queue = [message])
    (hsent : copiesTo queue a'.sent = copiesTo queue a.sent ++ more)
    (hready : m'.ready queue =
      (if outcome = .nack true then [message] else []) ++ m.ready queue ++ more)
    (hunsettled : m'.unsettled queue = [])
    (hdelivered : m'.delivered queue = m.delivered queue)
    (hrecorded : m'.recorded queue = m.recorded queue ++ [recordOf queue message outcome]) :
    ∃ blocks' tries', InTurn m' a' queue blocks' tries' := by
  have hpending : m.pending queue = message :: m.ready queue := by
    rw [pending, hone]
    rfl
  by_cases houtcome : outcome = .nack true
  · subst houtcome
    have hpending' : m'.pending queue = m.pending queue ++ more := by
      rw [pending, hunsettled, hready, hpending]
      rfl
    refine ⟨blocks, tries + 1, ?_, ?_, ?_, ?_, fun hnone => ?_⟩
    · rw [hsent, h.appended, hpending', List.append_assoc]
    · rw [hrecorded, h.records, hpending', hpending]
      simp [List.replicate_succ']
    · rw [hdelivered, h.delivered, hpending', hpending, hone, hunsettled]
      simp [List.replicate_succ']
    · rw [hunsettled]
      exact Nat.zero_le 1
    · rw [hpending', hpending] at hnone
      cases hnone
  · have hpending' : m'.pending queue = m.ready queue ++ more := by
      rw [pending, hunsettled, hready, if_neg houtcome]
      rfl
    refine ⟨blocks ++ [⟨message, tries, outcome, houtcome⟩], 0, ?_, ?_, ?_, ?_, fun _ => rfl⟩
    · rw [hsent, h.appended, hpending', hpending]
      simp
    · rw [hrecorded, h.records, hpending]
      simp [Block.records]
    · rw [hdelivered, h.delivered, hpending, hone, hunsettled]
      simp [Block.delivered, List.replicate_succ']
    · rw [hunsettled]
      exact Nat.zero_le 1

theorem eq_of_perm_of_length_le_one {α : Type} {l l' : List α} (h : l.Perm l')
    (hle : l.length ≤ 1) : l = l' := by
  match l, hle with
  | [], _ => exact h.nil_eq
  | [x], _ => exact List.singleton_perm.mp h

/-- If there is still at most one unsettled delivery after the activity, the messages are still in
turn. -/
theorem InTurn.step (h : InTurn m a queue blocks tries) (hb : Balanced m a) (activity : Activity)
    (hone : ((m.act activity).unsettled queue).length ≤ 1) :
    ∃ blocks' tries', InTurn (m.act activity) (a.note m activity) queue blocks' tries' := by
  have hentered := entered hb.known a activity
  generalize m.act activity = m', a.note m activity = a' at hentered hone ⊢
  cases hentered with
  | idle hready hu =>
    exact ⟨blocks, tries, h.extend (List.append_nil _).symm
      ((hready queue).trans (List.append_nil _).symm) (hu.unsettled queue) (hu.delivered queue)
      (hu.recorded queue)⟩
  | sent copies hready hu =>
    exact ⟨blocks, tries, h.extend (copiesTo_append queue a.sent copies) (hready queue)
      (hu.unsettled queue) (hu.delivered queue) (hu.recorded queue)⟩
  | @taken name message hexists hname hother hu =>
    have hunsettled := (hu.unsettled queue).trans (unsettled_deliver m name message queue)
    have hdelivered := (hu.delivered queue).trans (delivered_deliver m name message queue)
    have hrecorded : m'.recorded queue = m.recorded queue := hu.recorded queue
    by_cases hqueue : name = queue
    · subst hqueue
      rw [if_pos rfl] at hunsettled hdelivered
      have hnone : m.unsettled name = [] := by
        rw [hunsettled, List.length_append] at hone
        exact List.eq_nil_of_length_eq_zero (Nat.le_zero.mp (Nat.le_of_succ_le_succ hone))
      rw [hnone] at hunsettled
      exact ⟨blocks, tries, h.take hnone hname hunsettled hdelivered hrecorded⟩
    · rw [if_neg hqueue, List.append_nil] at hunsettled hdelivered
      have hready : m'.ready queue = m.ready queue := hother queue (Ne.symm hqueue)
      exact ⟨blocks, tries, h.extend (List.append_nil _).symm
        (hready.trans (List.append_nil _).symm) hunsettled hdelivered hrecorded⟩
  | @settled delivery d outcome copies hd hs hready hu =>
    have hperm := unsettled_settledAs hd hs outcome queue
    rw [← hu.unsettled queue] at hperm
    have hperm := eq_of_perm_of_length_le_one hperm h.one
    have hdelivered := (hu.delivered queue).trans (delivered_settledAs hd outcome queue)
    have hrecorded := (hu.recorded queue).trans (recorded_settledAs m delivery d outcome queue)
    have hready := hready queue
    by_cases hqueue : d.queue = queue
    · subst hqueue
      rw [if_pos rfl] at hperm hrecorded
      have hlast : m'.unsettled d.queue = [] := by
        have hlen := h.one
        rw [hperm, List.length_append, List.length_singleton] at hlen
        exact List.eq_nil_of_length_eq_zero (by omega)
      rw [hlast, List.append_nil] at hperm
      simp only [and_true] at hready
      exact h.settle hperm (copiesTo_append ..) hready hlast hdelivered hrecorded
    · rw [if_neg hqueue, List.append_nil] at hrecorded
      rw [if_neg hqueue, List.nil_append] at hperm
      rw [if_neg fun hcase => hqueue hcase.2.symm, List.nil_append] at hready
      exact ⟨blocks, tries, h.extend (copiesTo_append ..) hready hperm.symm hdelivered hrecorded⟩

end Courier.Memory
