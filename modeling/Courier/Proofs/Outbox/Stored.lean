import Courier.Proofs.Outbox.Serial
import Mathlib.Data.List.Nodup

/-!
# Rows that are stored for events

An event that is written to an outbox becomes a row, with the payload, the name and the tags of the
event (`Stores.exists_entry`). From then on whatever row has its id, staged or committed, is that row,
but for being published (`Faithful`): ids are not given twice, and no operation changes anything else
of a row (`Faithful.step`).
-/

namespace Courier.Outbox

variable {o : Outbox} {tx : TransactionId} {t : OutboxTransaction} {now : Int} {event : Event}
  {entry : NewEntry} {e : OutboxEntry}

/-! ## What is stored -/

/-- When the event is written to the outbox, the row is the one that is stored for it. -/
def Stores (o : Outbox) (tx : TransactionId) (now : Int) (event : Event) (e : OutboxEntry) : Prop :=
  ∃ o' t, o.emit tx now event = some (.ok e.id, o') ∧ o'.transaction? tx = some t ∧
    t.inserts.getLast? = some e

theorem transaction?_stage (ht : o.transaction? tx = some t) (entry : NewEntry) :
    (o.stage tx t entry).transaction? tx =
      some { t with inserts := t.inserts ++ [entry.row (o.lastId + 1)] } :=
  (transaction?_set ht tx _).trans (if_pos rfl)

/-- The row is that of the event's entry, and its id is the next one. -/
theorem Stores.exists_entry (h : o.Stores tx now event e) :
    ∃ t entry, o.transaction? tx = some t ∧ NewEntry.ofEvent now event = .ok entry ∧
      e = entry.row (o.lastId + 1) := by
  obtain ⟨o', t', hemit, hopen, hlast⟩ := h
  cases ht : o.transaction? tx with
  | none =>
    have hnone : o.emit tx now event = none := by
      simp only [emit, insert, ht]
      split <;> rfl
    cases hnone.symm.trans hemit
  | some t =>
    rw [emit_of_open ht] at hemit
    cases hevent : NewEntry.ofEvent now event with
    | error cause =>
      rw [hevent] at hemit
      cases hemit
    | ok entry =>
      rw [hevent] at hemit
      obtain ⟨-, rfl⟩ := Prod.mk.inj (Option.some.inj hemit)
      obtain rfl := Option.some.inj ((transaction?_stage ht entry).symm.trans hopen)
      exact ⟨t, entry, rfl, rfl, Option.some.inj (hlast.symm.trans List.getLast?_concat)⟩

/-- A row that is stored for an event holds the event's payload. -/
theorem Stores.payload_eq (h : o.Stores tx now event e) : event.payload = .ok e.payload := by
  obtain ⟨t, entry, -, hevent, rfl⟩ := h.exists_entry
  exact (NewEntry.of_ofEvent hevent).1

/-! ## What becomes of it -/

/-- Whatever row has the id of this one is this one, but for being published. -/
structure Faithful (o : Outbox) (e : OutboxEntry) : Prop where
  given : e.id ≤ o.lastId
  same : ∀ row ∈ o.rows ++ o.staged, row.id = e.id → row = e ∨ row = { e with published := true }

/-- Rows with the same id are the same row. -/
theorem IdsDistinct.eq_of_id_eq (h : o.IdsDistinct) {row row' : OutboxEntry}
    (hrow : row ∈ o.rows ++ o.staged) (hrow' : row' ∈ o.rows ++ o.staged) (hid : row.id = row'.id) :
    row = row' :=
  List.inj_on_of_nodup_map h.nodup hrow hrow' hid

/-- The row is new, so no other has its id. -/
theorem Stores.faithful (h : o.Stores tx now event e) (wf : o.WellFormed) :
    (o.step (.emit tx now event)).Faithful e := by
  obtain ⟨t, entry, ht, hevent, rfl⟩ := h.exists_entry
  have hstep : o.step (.emit tx now event) = o.stage tx t entry := by
    simp only [step, emit_of_open ht, hevent, Option.map_some, Option.getD_some]
  have wf' := wf.step (.emit tx now event)
  rw [hstep] at wf' ⊢
  have hmem : entry.row (o.lastId + 1) ∈ (o.stage tx t entry).staged :=
    mem_staged.mpr ⟨tx, _, transaction?_stage ht entry,
      List.mem_append_right _ (List.mem_singleton_self _)⟩
  exact ⟨Int.le_refl _, fun row hrow hid =>
    .inl (wf'.ids.eq_of_id_eq hrow (List.mem_append_right _ hmem) hid)⟩

/-- No operation gives the id again or changes the row otherwise. -/
theorem Faithful.step (h : o.Faithful e) (wf : o.WellFormed) (op : Operation) :
    (o.step op).Faithful e := by
  refine ⟨?_, fun row hrow hid => ?_⟩
  · have hgiven := h.given
    rcases lastId_step o op with hlast | ⟨-, hlast⟩ <;> omega
  · rcases List.mem_append.mp hrow with hrow | hrow
    · obtain ⟨row₀, heq, hrow₀⟩ := wf.mem_rows_step_cases hrow
      have hmem : row₀ ∈ o.rows ++ o.staged := by
        rcases hrow₀ with hrow₀ | ⟨tx, t, -, ht, hrow₀⟩
        · exact List.mem_append_left _ hrow₀
        · exact List.mem_append_right _ (mem_staged.mpr ⟨tx, t, ht, hrow₀⟩)
      have hid₀ : row₀.id = e.id := by rcases heq with rfl | rfl <;> exact hid
      rcases heq with rfl | rfl
      · exact h.same row hmem hid₀
      · rcases h.same row₀ hmem hid₀ with rfl | rfl <;> exact .inr rfl
    · obtain ⟨tx, t, ht, hrow⟩ := mem_staged.mp hrow
      obtain ⟨t', ht', hrow | ⟨-, -, hnew⟩⟩ := mem_inserts_step_cases ht hrow
      · exact h.same row (List.mem_append_right _ (mem_staged.mpr ⟨tx, t', ht', hrow⟩)) hid
      · -- a row that has just been staged has an id above all that were given
        have hgiven := h.given
        omega

end Courier.Outbox
