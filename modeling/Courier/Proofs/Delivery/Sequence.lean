import Courier.Proofs.Delivery.Order
import Courier.Proofs.Delivery.Readers
import Courier.Proofs.Pipeline.Logs

/-!
# The rows in the queue

The messages in the queue are known by the numbers that the broker has given them, so each is of a row
(`rowOf`). `Sequenced` says of all messages that have been in the queue that every one of them is of a
row that the relay has had accepted, that every such row is among them, and that they are in order.
It is kept when a row is published again or for the first time (`Sequenced.accept`), when handled
messages come back (`Sequenced.repeats`), and when more rows are committed (`Sequenced.outbox`).
-/

namespace Courier.Delivery

open Pipeline (Appended Logged)

variable {s s' : Pipeline.System} {appended more : List Appended} {message other : Message} {id : Int}
  {messages handled rest front back trail : List Message}

/-! ## Messages of rows -/

theorem entryOf_again (h : Memory.Message.Again message other) :
    entryOf appended other = entryOf appended message := by
  rw [entryOf, entryOf, h.messageId]

theorem entryOf_append {a : Appended} (h : entryOf appended message = some a) :
    entryOf (appended ++ more) message = some a := by
  unfold entryOf at h ⊢
  rw [List.find?_append, h, Option.some_or]

theorem rowOf_of_entryOf {a : Appended} (h : entryOf appended message = some a) :
    rowOf appended message = some a.entry.id := by
  rw [rowOf, h, Option.map_some]

theorem mem_of_rowsOf (h : id ∈ rowsOf appended messages) : ∃ a ∈ appended, a.entry.id = id := by
  obtain ⟨message, -, hid⟩ := List.mem_filterMap.mp h
  obtain ⟨a, ha, hid⟩ := Option.map_eq_some_iff.mp hid
  exact ⟨a, List.mem_of_find?_eq_some ha, hid⟩

/-- The message that the broker has just numbered was published as the last entry. -/
theorem entryOf_copy {m : Memory} {a : Appended} (hnumber : a.number = m.lastMessageId + 1)
    (hold : ∀ b ∈ appended, b.number ≤ m.lastMessageId) (publishing : Publishing) :
    entryOf (appended ++ [a]) (m.copy publishing) = some a := by
  have hnone : appended.find? (fun b =>
      (m.copy publishing).info.messageId == some s!"msg-{b.number}") = none := by
    refine List.find?_eq_none.mpr fun b hb hname => ?_
    have := Memory.name_injective (Option.some.inj (beq_iff_eq.mp hname))
    have := hold b hb
    omega
  have hone : [a].find? (fun b =>
      (m.copy publishing).info.messageId == some s!"msg-{b.number}") = some a := by
    rw [List.find?_singleton, hnumber]
    exact if_pos (beq_self_eq_true _)
  rw [entryOf, List.find?_append, hnone, hone, Option.none_or]

theorem rowsOf_append_messages : rowsOf appended (front ++ back) =
    rowsOf appended front ++ rowsOf appended back :=
  List.filterMap_append

/-- Each of the messages was published as an entry, and says what the entry says. -/
def Known (appended : List Appended) (messages : List Message) : Prop :=
  ∀ message ∈ messages, ∃ a, entryOf appended message = some a ∧ message.body = a.publishing.body

theorem Known.append (h : Known appended messages) : Known (appended ++ more) messages := by
  intro message hmem
  obtain ⟨a, ha, hbody⟩ := h message hmem
  exact ⟨a, entryOf_append ha, hbody⟩

/-- More entries make no difference to messages that are of one already. -/
theorem Known.rowsOf_append (h : Known appended messages) :
    rowsOf (appended ++ more) messages = rowsOf appended messages := by
  induction messages with
  | nil => rfl
  | cons message messages ih =>
    obtain ⟨a, ha, -⟩ := h message List.mem_cons_self
    have ih := ih fun message hmem => h message (List.mem_cons_of_mem _ hmem)
    rw [rowsOf, rowsOf, List.filterMap_cons_some (rowOf_of_entryOf (entryOf_append ha)),
      List.filterMap_cons_some (rowOf_of_entryOf ha)]
    exact congrArg (a.entry.id :: ·) ih

/-- Messages that come back are of the same rows. -/
theorem Repeats.rowsOf_subset (h : Repeats handled messages) (hid : id ∈ rowsOf appended messages) :
    id ∈ rowsOf appended handled := by
  obtain ⟨message, hmem, hrow⟩ := List.mem_filterMap.mp hid
  obtain ⟨old, hold, hagain⟩ := h message hmem
  refine List.mem_filterMap.mpr ⟨old, hold, ?_⟩
  rw [← hrow, rowOf, rowOf, entryOf_again hagain]

theorem Repeats.known (h : Repeats handled messages) (hk : Known appended handled) :
    Known appended messages := by
  intro message hmem
  obtain ⟨old, hold, hagain⟩ := h message hmem
  obtain ⟨a, ha, hbody⟩ := hk old hold
  exact ⟨a, by rw [entryOf_again hagain, ha], by rw [hagain.body, hbody]⟩

/-! ## What is kept -/

/-- All messages that have been in the queue, put together with the rows. -/
structure Sequenced (s : Pipeline.System) (trail : List Message) : Prop where
  numbered : ∀ a ∈ s.appended, a.number ≤ (s.brokers 0).lastMessageId
  known : Known s.appended trail
  covered : ∀ a ∈ s.appended, a.entry.id ∈ rowsOf s.appended trail
  inOrder : InOrder s.outbox.committed (rowsOf s.appended trail)

/-- The rows in the queue are committed. -/
theorem committed_of_rowsOf (l : Logged s) (h : id ∈ rowsOf s.appended trail) :
    s.outbox.committed id := by
  obtain ⟨a, ha, rfl⟩ := mem_of_rowsOf h
  obtain ⟨row, hrow, e⟩ := l.committed a ha
  exact ⟨row, hrow, by rcases e with rfl | rfl <;> rfl⟩

/-- Something else happens. -/
theorem Sequenced.aside (h : Sequenced s trail) (ha : s'.appended = s.appended)
    (ho : s'.outbox = s.outbox)
    (hl : (s.brokers 0).lastMessageId ≤ (s'.brokers 0).lastMessageId) : Sequenced s' trail where
  numbered a hmem := Nat.le_trans (h.numbered a (ha ▸ hmem)) hl
  known := ha ▸ h.known
  covered a hmem := by
    rw [ha] at hmem ⊢
    exact h.covered a hmem
  inOrder := by
    rw [ha, ho]
    exact h.inOrder

/-- The outbox goes on; nothing is committed below the rows in the queue. -/
theorem Sequenced.outbox (h : Sequenced s trail) (l : Logged s) (wf : s.outbox.WellFormed)
    (hs : s.outbox.Serial) {op : Outbox.Operation} (ha : s'.appended = s.appended)
    (ho : s'.outbox = s.outbox.step op) (hb : s'.brokers = s.brokers) : Sequenced s' trail where
  numbered a hmem := hb ▸ h.numbered a (ha ▸ hmem)
  known := ha ▸ h.known
  covered a hmem := by
    rw [ha] at hmem ⊢
    exact h.covered a hmem
  inOrder := by
    rw [ha, ho]
    refine h.inOrder.mono fun id hid c hc hlt => ?_
    exact hs.committed_below wf (committed_of_rowsOf l hid) hc hlt

/-- Messages that were handled come back. -/
theorem Sequenced.repeats (h : Sequenced s (handled ++ rest))
    (hr : Repeats handled (front ++ back)) : Sequenced s (handled ++ front ++ rest ++ back) := by
  have hknown : Known s.appended (front ++ back) :=
    hr.known fun message hmem => h.known message (List.mem_append_left _ hmem)
  have hagain : ∀ {id}, id ∈ rowsOf s.appended front ∨ id ∈ rowsOf s.appended back →
      id ∈ rowsOf s.appended handled := by
    intro id hid
    rw [← List.mem_append, ← rowsOf_append_messages] at hid
    exact hr.rowsOf_subset hid
  have hinOrder := h.inOrder
  rw [rowsOf_append_messages] at hinOrder
  refine ⟨h.numbered, fun message hmem => ?_, fun a ha => ?_, ?_⟩
  · simp only [List.mem_append] at hmem
    rcases hmem with ((hmem | hmem) | hmem) | hmem
    · exact h.known message (List.mem_append_left _ hmem)
    · exact hknown message (List.mem_append_left _ hmem)
    · exact h.known message (List.mem_append_right _ hmem)
    · exact hknown message (List.mem_append_right _ hmem)
  · have hcovered := h.covered a ha
    simp only [rowsOf_append_messages, List.mem_append] at hcovered ⊢
    rcases hcovered with hmem | hmem
    · exact .inl (.inl (.inl hmem))
    · exact .inl (.inr hmem)
  · simp only [rowsOf_append_messages]
    refine (hinOrder.insert fun id hid => hagain (.inl hid)).append fun id hid c hc hlt => ?_
    -- what comes last was handled, and so were the smaller ones
    have hmem := hinOrder.of_append.complete id (hagain (.inr hid)) c hc hlt
    exact List.mem_append_left _ (List.mem_append_left _ hmem)

/-- A row is accepted behind all smaller ones. -/
theorem Sequenced.accept (h : Sequenced s trail) {a : Appended} {count : Nat}
    (hbelow : ∀ c, s.outbox.committed c → c < a.entry.id → c ∈ rowsOf s.appended trail)
    (hnumber : a.number = (s.brokers 0).lastMessageId + 1) (ho : s'.outbox = s.outbox)
    (ha : s'.appended = s.appended ++ [a])
    (hl : (s'.brokers 0).lastMessageId = (s.brokers 0).lastMessageId + 1) :
    Sequenced s' (trail ++ List.replicate (count + 1) ((s.brokers 0).copy a.publishing)) := by
  have hcopy := entryOf_copy hnumber h.numbered a.publishing
  have hrows : rowsOf s'.appended
      (trail ++ List.replicate (count + 1) ((s.brokers 0).copy a.publishing)) =
        rowsOf s.appended trail ++ List.replicate (count + 1) a.entry.id := by
    rw [ha, rowsOf_append_messages, h.known.rowsOf_append]
    congr 1
    exact List.filterMap_replicate_of_some (rowOf_of_entryOf hcopy)
  refine ⟨fun b hb => ?_, fun message hmem => ?_, fun b hb => ?_, ?_⟩
  · rw [ha] at hb
    rcases List.mem_append.mp hb with hb | hb
    · have := h.numbered b hb
      omega
    · exact Nat.le_of_eq (by rw [List.mem_singleton.mp hb, hnumber, hl])
  · rw [ha]
    rcases List.mem_append.mp hmem with hmem | hmem
    · exact h.known.append message hmem
    · rw [List.eq_of_mem_replicate hmem]
      exact ⟨a, hcopy, rfl⟩
  · rw [hrows]
    rw [ha] at hb
    rcases List.mem_append.mp hb with hb | hb
    · exact List.mem_append_left _ (h.covered b hb)
    · rw [List.mem_singleton.mp hb]
      exact List.mem_append_right _ (List.mem_replicate.mpr ⟨Nat.succ_ne_zero count, rfl⟩)
  · rw [hrows, ho]
    refine h.inOrder.append fun id hid => ?_
    rw [List.eq_of_mem_replicate hid]
    exact hbelow

end Courier.Delivery
