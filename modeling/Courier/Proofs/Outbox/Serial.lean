import Courier.Proofs.Outbox.Isolation
import Courier.Proofs.Outbox.SkipLocked

/-!
# Writers one after another

Ids are given out when rows are staged, so a transaction that takes long commits rows below those of
others. If transactions write one after another, each while no other has staged rows (`alone`), then
staged rows are above the committed ones (`Serial.step`), and nothing is ever committed below a
committed row (`Serial.committed_below`).
-/

namespace Courier.Outbox

variable {o : Outbox} {op : Operation} {tx : TransactionId} {t : OutboxTransaction}

/-! ## Where rows come from -/

/-- A committed row was committed before, or its transaction has just been. -/
theorem WellFormed.mem_rows_step_cases (h : o.WellFormed) {row : OutboxEntry}
    (hrow : row ∈ (o.step op).rows) :
    ∃ row₀, (row = row₀ ∨ row = { row₀ with published := true }) ∧
      (row₀ ∈ o.rows ∨ ∃ tx t, op = .commit tx ∧ o.transaction? tx = some t ∧ row₀ ∈ t.inserts) := by
  have change : ∀ {o'}, Change o op o' → row ∈ o'.rows → ∃ row₀,
      (row = row₀ ∨ row = { row₀ with published := true }) ∧
      (row₀ ∈ o.rows ∨ ∃ tx t, op = .commit tx ∧ o.transaction? tx = some t ∧ row₀ ∈ t.inserts) := by
    intro o' hc hrow
    cases hc with
    | @apply tx t ht =>
      obtain ⟨row₀, hrow₀, rfl⟩ := List.mem_map.mp ((h.applied_perm ht).mem_iff.mp hrow)
      refine ⟨row₀, OutboxEntry.markedIn_eq t.marks row₀, ?_⟩
      rcases List.mem_append.mp hrow₀ with hrow₀ | hrow₀
      · exact .inl hrow₀
      · exact .inr ⟨tx, t, rfl, ht, hrow₀⟩
    | _ => exact ⟨row, .inl rfl, .inl hrow⟩
  exact change (step_change o op) hrow

/-- A staged row was staged before, or has just been. -/
theorem mem_inserts_step_cases (h : (o.step op).transaction? tx = some t) {row : OutboxEntry}
    (hrow : row ∈ t.inserts) :
    ∃ t', o.transaction? tx = some t' ∧
      (row ∈ t'.inserts ∨ op.transaction? = some tx ∧ op.writes = true ∧ row.id = o.lastId + 1) := by
  cases became h with
  | begun => cases hrow
  | same h' => exact ⟨_, h', .inl hrow⟩
  | @staged t' h' hop entry =>
    refine ⟨_, h', ?_⟩
    rcases List.mem_append.mp hrow with hrow | hrow
    · exact .inl hrow
    · rw [List.mem_singleton.mp hrow]
      exact .inr ⟨hop.1, hop.2, rfl⟩
  | locked h' => exact ⟨_, h', .inl hrow⟩
  | marked h' => exact ⟨_, h', .inl hrow⟩

/-- A lock was held before, or has just been taken. -/
theorem mem_locked_step_cases (h : (o.step op).transaction? tx = some t) {id : Int}
    (hid : id ∈ t.locked) :
    ∃ t', o.transaction? tx = some t' ∧ (id ∈ t'.locked ∨ ∃ limit, op = .fetch tx limit) := by
  cases became h with
  | begun => cases hid
  | same h' => exact ⟨_, h', .inl hid⟩
  | staged h' => exact ⟨_, h', .inl hid⟩
  | locked h' hop => exact ⟨_, h', .inr ⟨_, hop⟩⟩
  | marked h' => exact ⟨_, h', .inl hid⟩

/-- An operation that writes no row leaves the rows as they are, but for what is published. -/
theorem WellFormed.mem_rows_staged_step (h : o.WellFormed) (hop : op.writes = false)
    {row : OutboxEntry} (hrow : row ∈ (o.step op).rows ++ (o.step op).staged) :
    ∃ row₀ ∈ o.rows ++ o.staged, row = row₀ ∨ row = { row₀ with published := true } := by
  rcases List.mem_append.mp hrow with hrow | hrow
  · obtain ⟨row₀, e, hrow₀ | ⟨tx, t, -, ht, hrow₀⟩⟩ := h.mem_rows_step_cases hrow
    · exact ⟨row₀, List.mem_append_left _ hrow₀, e⟩
    · exact ⟨row₀, List.mem_append_right _ (mem_staged.mpr ⟨tx, t, ht, hrow₀⟩), e⟩
  · obtain ⟨tx, t, ht, hrow⟩ := mem_staged.mp hrow
    obtain ⟨t', ht', hrow | ⟨-, hwrites, -⟩⟩ := mem_inserts_step_cases ht hrow
    · exact ⟨row, List.mem_append_right _ (mem_staged.mpr ⟨tx, t', ht', hrow⟩), .inl rfl⟩
    · rw [hop] at hwrites
      cases hwrites

/-! ## One after another -/

/-- Has no other open transaction staged rows? -/
def alone (o : Outbox) (tx : TransactionId) : Bool :=
  (List.range o.transactions.length).all fun other =>
    other == tx || (o.transaction? other).all (·.inserts.isEmpty)

theorem inserts_of_alone (h : o.alone tx = true) {other : TransactionId}
    (ht : o.transaction? other = some t) (hne : other ≠ tx) : t.inserts = [] := by
  have hother := List.all_eq_true.mp h other (List.mem_range.mpr (lt_of_transaction? ht))
  rw [Bool.or_eq_true, beq_iff_eq, ht, Option.all_some, List.isEmpty_iff] at hother
  exact hother.resolve_left hne

/-- One open transaction at most has staged rows, and these are above the committed ones. -/
structure Serial (o : Outbox) : Prop where
  single : ∀ tx₁ tx₂ t₁ t₂, o.transaction? tx₁ = some t₁ → o.transaction? tx₂ = some t₂ →
    ∀ row₁ ∈ t₁.inserts, ∀ row₂ ∈ t₂.inserts, tx₁ = tx₂
  above : ∀ tx t, o.transaction? tx = some t → ∀ new ∈ t.inserts, ∀ row ∈ o.rows, row.id < new.id

theorem serial_empty : Serial {} :=
  ⟨fun tx₁ tx₂ t₁ t₂ h => by simp [transaction?] at h, fun tx t h => by simp [transaction?] at h⟩

theorem Serial.step (h : o.Serial) (wf : o.WellFormed)
    (hop : ∀ tx, op.transaction? = some tx → op.writes = true → o.alone tx = true) :
    (o.step op).Serial := by
  have nothing : ∀ {tx other t} {row : OutboxEntry}, op.transaction? = some tx → op.writes = true →
      o.transaction? other = some t → row ∈ t.inserts → other = tx := by
    intro tx other t row htx hwrites ht hrow
    refine Decidable.byContradiction fun hne => ?_
    rw [inserts_of_alone (hop tx htx hwrites) ht hne] at hrow
    cases hrow
  refine ⟨fun tx₁ tx₂ t₁ t₂ h₁ h₂ row₁ hrow₁ row₂ hrow₂ => ?_, fun tx t ht new hnew row hrow => ?_⟩
  · obtain ⟨t₁', h₁', hrow₁ | ⟨htx₁, hwrites, -⟩⟩ := mem_inserts_step_cases h₁ hrow₁ <;>
      obtain ⟨t₂', h₂', hrow₂ | ⟨htx₂, hwrites', -⟩⟩ := mem_inserts_step_cases h₂ hrow₂
    · exact h.single tx₁ tx₂ t₁' t₂' h₁' h₂' row₁ hrow₁ row₂ hrow₂
    · exact nothing htx₂ hwrites' h₁' hrow₁
    · exact (nothing htx₁ hwrites h₂' hrow₂).symm
    · exact Option.some.inj (htx₁.symm.trans htx₂)
  · obtain ⟨row₀, e, hrow₀⟩ := wf.mem_rows_step_cases hrow
    have hid : row.id = row₀.id := by rcases e with rfl | rfl <;> rfl
    rw [hid]
    obtain ⟨t', ht', hnew⟩ := mem_inserts_step_cases ht hnew
    rcases hrow₀ with hrow₀ | ⟨tx', t₀, rfl, ht₀, hrow₀⟩
    · rcases hnew with hnew | ⟨-, -, hnew⟩
      · exact h.above tx t' ht' new hnew row₀ hrow₀
      · -- a new row gets an id that is greater than all others
        have := (wf.ids.bounds row₀ (List.mem_append_left _ hrow₀)).2
        omega
    · -- the transaction that commits was the only one with staged rows, and it ends
      rcases hnew with hnew | ⟨-, hwrites, -⟩
      · obtain rfl := h.single tx' tx t₀ t' ht₀ ht' row₀ hrow₀ new hnew
        rw [transaction?_commit ht₀] at ht
        cases ht
      · cases hwrites

/-! ## What is committed -/

/-- Is there a committed row of this id? -/
def committed (o : Outbox) (id : Int) : Prop :=
  ∃ row ∈ o.rows, row.id = id

/-- Nothing is committed below a committed row. -/
theorem Serial.committed_below (h : o.Serial) (wf : o.WellFormed) {id c : Int}
    (hid : o.committed id) (hc : (o.step op).committed c) (hlt : c < id) : o.committed c := by
  obtain ⟨row, hrow, rfl⟩ := hc
  obtain ⟨row₀, e, hrow₀⟩ := wf.mem_rows_step_cases hrow
  have hid₀ : row₀.id = row.id := by rcases e with rfl | rfl <;> rfl
  rcases hrow₀ with hrow₀ | ⟨tx, t, -, ht, hrow₀⟩
  · exact ⟨row₀, hrow₀, hid₀⟩
  · obtain ⟨other, hother, rfl⟩ := hid
    have := h.above tx t ht row₀ hrow₀ other hother
    omega

end Courier.Outbox
