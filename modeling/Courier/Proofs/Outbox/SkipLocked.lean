import Courier.Proofs.Outbox.Invariant

/-!
# Skipping locked rows

What a user of an outbox can rely on while other transactions are open. `SkipLocked` states it of
one outbox: who holds which lock, which ids there are, what becomes of a committed row, and what a
fetch answers. `skipLocked_after` proves it after any operations of any transactions.

The statement speaks of open transactions only. The store's own lock list is what the fetch reads,
so `LocksExact` is what carries the answer of a fetch over to the transactions (`lowest_free`).
-/

namespace Courier.Outbox

variable {o o₁ o₂ o₃ : Outbox} {tx : TransactionId} {t : OutboxTransaction}

/-! ## Committed rows stay -/

/-- Every committed row is still there, changed in nothing but that it may have been published. -/
def RowsKept (o o' : Outbox) : Prop :=
  ∀ row ∈ o.rows, ∃ row' ∈ o'.rows, row' = row ∨ row' = { row with published := true }

theorem RowsKept.of_eq (h : o₂.rows = o₁.rows) : RowsKept o₁ o₂ :=
  fun row hrow => ⟨row, h ▸ hrow, .inl rfl⟩

theorem RowsKept.trans (h₁ : RowsKept o₁ o₂) (h₂ : RowsKept o₂ o₃) : RowsKept o₁ o₃ := by
  intro row hrow
  obtain ⟨row', hrow', e⟩ := h₁ row hrow
  obtain ⟨row'', hrow'', e'⟩ := h₂ row' hrow'
  refine ⟨row'', hrow'', ?_⟩
  rcases e with rfl | rfl
  · exact e'
  · exact .inr (e'.elim id id)

/-- A commit adds rows to those of before, and marks. -/
theorem WellFormed.applied_perm (h : o.WellFormed) (ht : o.transaction? tx = some t) :
    (applied t o.rows).Perm ((o.rows ++ t.inserts).map (OutboxEntry.markedIn t.marks)) :=
  Outbox.applied_perm (h.ids.inserts ht)

theorem WellFormed.rowsKept_apply (h : o.WellFormed) (ht : o.transaction? tx = some t) :
    RowsKept o ({ o with rows := applied t o.rows }.finish tx t) := by
  intro row hrow
  refine ⟨row.markedIn t.marks, ?_, OutboxEntry.markedIn_eq t.marks row⟩
  have hmem : row.markedIn t.marks ∈ (o.rows ++ t.inserts).map (OutboxEntry.markedIn t.marks) :=
    List.mem_map_of_mem (List.mem_append_left _ hrow)
  exact (h.applied_perm ht).mem_iff.mpr hmem

theorem WellFormed.rowsKept_step (h : o.WellFormed) (op : Operation) : RowsKept o (o.step op) := by
  have keep : ∀ {o'}, Change o op o' → RowsKept o o' := by
    intro o' hc
    cases hc with
    | apply ht => exact h.rowsKept_apply ht
    | _ => exact .of_eq rfl
  exact keep (step_change o op)

theorem WellFormed.rowsKept_after (h : o.WellFormed) (operations : List Operation) :
    RowsKept o (o.after operations) := by
  induction operations generalizing o with
  | nil => exact .of_eq rfl
  | cons op operations ih => exact (h.rowsKept_step op).trans (ih (h.step op))

/-! ## Ids that were given out -/

/-- A write may give out one id, and nothing else does. -/
theorem lastId_step (o : Outbox) (op : Operation) :
    (o.step op).lastId = o.lastId ∨ op.writes = true ∧ (o.step op).lastId = o.lastId + 1 := by
  have change : ∀ {o'}, Change o op o' →
      o'.lastId = o.lastId ∨ op.writes = true ∧ o'.lastId = o.lastId + 1 := by
    intro o' hc
    cases hc with
    | stage entry ht hop => exact .inr ⟨hop.2, rfl⟩
    | _ => exact .inl rfl
  exact change (step_change o op)

theorem lastId_after_le (o : Outbox) (operations : List Operation) :
    (o.after operations).lastId ≤ o.lastId + operations.countP Operation.writes := by
  induction operations generalizing o with
  | nil => simp [after]
  | cons op operations ih =>
    have hrest : (o.after (op :: operations)).lastId ≤
        (o.step op).lastId + operations.countP Operation.writes := ih (o.step op)
    rw [List.countP_cons]
    rcases lastId_step o op with hstep | ⟨hwrites, hstep⟩
    · split <;> omega
    · rw [if_pos hwrites]
      omega

/-! ## What a fetch answers -/

/-- A row that a fetch may answer: committed, not published, and held by no open transaction. -/
structure Free (o : Outbox) (row : OutboxEntry) : Prop where
  committed : row ∈ o.rows
  unpublished : row.published = false
  unlocked : ∀ tx t, o.transaction? tx = some t → row.id ∉ t.locked

theorem LocksExact.unlocked_iff_free (h : o.LocksExact) {row : OutboxEntry} :
    o.Unlocked row ↔ o.Free row := by
  refine ⟨fun hu => ⟨hu.committed, hu.unpublished, fun tx t ht hid => ?_⟩,
    fun hf => ⟨hf.committed, hf.unpublished, fun hid => ?_⟩⟩
  · exact hu.unlocked (h.mem_locked.mpr ⟨tx, t, ht, hid⟩)
  · obtain ⟨tx, t, ht, hmem⟩ := h.mem_locked.mp hid
    exact hf.unlocked tx t ht hmem

theorem WellFormed.lowest_free (h : o.WellFormed) (limit : Nat) :
    Lowest o.Free limit (o.available limit) :=
  (lowest_available h.ascending limit).congr fun _ => h.locks.unlocked_iff_free

/-- A transaction has these rows locked now, in addition to all that was locked, and nothing else has
changed. -/
structure Locked (o : Outbox) (tx : TransactionId) (t : OutboxTransaction) (rows : List OutboxEntry)
    (o' : Outbox) : Prop where
  locked : o'.locked = o.locked ++ rows.map (·.id)
  own : o'.transaction? tx = some { t with locked := t.locked ++ rows.map (·.id) }
  others : ∀ other ≠ tx, o'.transaction? other = o.transaction? other
  rows : o'.rows = o.rows
  lastId : o'.lastId = o.lastId
  failingCommits : o'.failingCommits = o.failingCommits

theorem locked_lock (ht : o.transaction? tx = some t) (limit : Nat) :
    Locked o tx t (o.available limit) (o.lock tx t limit) := by
  have hset : ∀ other, (o.lock tx t limit).transaction? other =
      if other = tx then some { t with locked := t.locked ++ (o.available limit).map (·.id) }
      else o.transaction? other :=
    fun other => transaction?_set (o := { o with locked := _ }) ht other _
  exact ⟨rfl, (hset tx).trans (if_pos rfl), fun other hne => (hset other).trans (if_neg hne), rfl, rfl, rfl⟩

/-! ## The end of a transaction -/

/-- However a transaction ends, the rows that it held are unlocked. -/
theorem not_mem_locked_of_ends {op : Operation} (hop : op.transaction? = some tx)
    (hends : op.ends = true) (ht : o.transaction? tx = some t) {id : Int} (hid : id ∈ t.locked) :
    id ∉ (o.step op).locked := by
  have hfinish : ∀ o₁ : Outbox, id ∉ (o₁.finish tx t).locked := fun o₁ hmem => by
    have hout := (List.mem_filter.mp hmem).2
    rw [List.contains_iff_mem.mpr hid] at hout
    cases hout
  cases op <;> simp only [Operation.transaction?, Option.some.injEq, reduceCtorEq] at hop <;>
    subst hop <;> simp only [Operation.ends, Bool.false_eq_true] at hends
  case commit =>
    rcases Nat.eq_zero_or_pos o.failingCommits with hf | hf
    · simp only [step, commit_of_open ht hf, Option.map_some, Option.getD_some]
      exact hfinish _
    · simp only [step, commit_of_failing ht hf, Option.map_some, Option.getD_some]
      exact hfinish _
  all_goals
    simp only [step, rollback_of_open ht, Option.getD_some]
    exact hfinish o

/-! ## All of it -/

/-- What the users of an outbox can rely on. -/
structure SkipLocked (o : Outbox) : Prop where
  /-- The locks are those of the open transactions, none twice. -/
  locks : o.locked.Perm o.held ∧ o.held.Nodup
  exclusive : ∀ tx₁ tx₂ t₁ t₂ id, o.transaction? tx₁ = some t₁ → o.transaction? tx₂ = some t₂ →
    id ∈ t₁.locked → id ∈ t₂.locked → tx₁ = tx₂
  released : ∀ tx t op, o.transaction? tx = some t → op.transaction? = some tx → op.ends = true →
    ∀ id ∈ t.locked, id ∉ (o.step op).locked
  distinct : ((o.rows ++ o.staged).map (·.id)).Nodup
  given : ∀ row ∈ o.rows ++ o.staged, 1 ≤ row.id ∧ row.id ≤ o.lastId
  /-- A commit adds the staged rows to the others and replaces none. -/
  committed : ∀ tx t, o.transaction? tx = some t → o.failingCommits = 0 →
    (o.step (.commit tx)).rows.Perm ((o.rows ++ t.inserts).map (OutboxEntry.markedIn t.marks))
  kept : ∀ operations, RowsKept o (o.after operations)
  fetched : ∀ tx t limit, o.transaction? tx = some t →
    ∃ rows o', o.fetch tx limit = some (rows, o') ∧ Lowest o.Free limit rows ∧
      Locked o tx t rows o'

theorem WellFormed.skipLocked (h : o.WellFormed) : o.SkipLocked where
  locks := ⟨h.locks.perm, h.locks.nodup⟩
  exclusive _ _ _ _ _ h₁ h₂ hid₁ hid₂ := h.locks.eq_of_mem h₁ h₂ hid₁ hid₂
  released _ _ _ ht hop hends _ hid := not_mem_locked_of_ends hop hends ht hid
  distinct := h.ids.nodup
  given := h.ids.bounds
  committed tx t ht hf := by
    simp only [Outbox.step, commit_of_open ht hf, Option.map_some, Option.getD_some]
    exact h.applied_perm ht
  kept := h.rowsKept_after
  fetched tx t limit ht :=
    ⟨_, _, fetch_of_open ht limit, h.lowest_free limit, locked_lock ht limit⟩

/-- After any operations of any transactions, in any order, an outbox is as its users rely on; and
it has given out no more ids than there were writes. -/
theorem skipLocked_after (operations : List Operation) :
    (({} : Outbox).after operations).SkipLocked ∧
      (({} : Outbox).after operations).lastId ≤ operations.countP Operation.writes := by
  refine ⟨(wellFormed_empty.after operations).skipLocked, ?_⟩
  have hle := lastId_after_le {} operations
  rwa [Int.zero_add] at hle

end Courier.Outbox
