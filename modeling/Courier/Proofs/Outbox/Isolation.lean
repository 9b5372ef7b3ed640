import Courier.Proofs.Outbox.Invariant

/-!
# What a transaction leaves to the others

An operation on one transaction leaves every other one as it is (`transaction?_step`), and the rows
that the other one holds too (`mem_rows_step`), provided that transactions mark only rows that they
hold (`Careful`). Which rows are published is then decided by the commits of those that marked them
(`isPublished_apply`, `isPublished_step`).
-/

namespace Courier.Outbox

variable {o o' : Outbox} {op : Operation} {tx : TransactionId} {t : OutboxTransaction}

/-- An operation on another transaction. -/
theorem transaction?_step (ht : o.transaction? tx = some t) (hop : op.transaction? ≠ some tx) :
    (o.step op).transaction? tx = some t := by
  have other : ∀ {o'}, Change o op o' → o'.transaction? tx = some t := by
    intro o' hc
    have hset : ∀ {tx' : TransactionId} {t' : OutboxTransaction} (o₁ : Outbox)
        (new : Option OutboxTransaction), o₁.transactions = o.transactions →
        o.transaction? tx' = some t' → some tx' ≠ some tx →
        (o₁.setTransaction tx' new).transaction? tx = some t := by
      intro tx' t' o₁ new hsame ht' hne
      have ht₁ : o₁.transaction? tx' = some t' := by rw [transaction?, hsame]; exact ht'
      have hne' : tx ≠ tx' := fun e => hne (congrArg some e.symm)
      rw [transaction?_set ht₁, if_neg hne', transaction?, hsame]
      exact ht
    cases hc with
    | idle => exact ht
    | begin =>
      obtain ⟨hlt, -⟩ := List.getElem?_eq_some_iff.mp (Option.join_eq_some_iff.mp ht)
      rw [transaction?, begin, List.getElem?_append_left hlt]
      exact ht
    | stage entry ht' hop' => exact hset _ _ rfl ht' (hop'.1 ▸ hop)
    | lock limit ht' => exact hset _ _ rfl ht' hop
    | marks ids ht' => exact hset _ _ rfl ht' hop
    | apply ht' => exact hset _ _ rfl ht' hop
    | refuse ht' => exact hset _ _ rfl ht' hop
    | discard ht' hop' => exact hset _ _ rfl ht' (hop'.1 ▸ hop)
    | failing => exact ht
  exact other (step_change o op)

/-- How a transaction that is open after an operation has become so. -/
inductive Became (o : Outbox) (op : Operation) (tx : TransactionId) : OutboxTransaction → Prop where
  | begun (hop : op = .begin) (htx : tx = o.transactions.length) : Became o op tx {}
  | same {t : OutboxTransaction} (ht : o.transaction? tx = some t) : Became o op tx t
  | staged {t : OutboxTransaction} (ht : o.transaction? tx = some t)
      (hop : op.transaction? = some tx ∧ op.writes = true) (entry : NewEntry) :
      Became o op tx { t with inserts := t.inserts ++ [entry.row (o.lastId + 1)] }
  | locked {t : OutboxTransaction} {limit : Nat} (ht : o.transaction? tx = some t)
      (hop : op = .fetch tx limit) :
      Became o op tx { t with locked := t.locked ++ (o.available limit).map (·.id) }
  | marked {t : OutboxTransaction} {ids : List Int} (ht : o.transaction? tx = some t)
      (hop : op = .mark tx ids) : Became o op tx { t with marks := t.marks ++ ids }

theorem became (h : (o.step op).transaction? tx = some t) : Became o op tx t := by
  have change : ∀ {o'}, Change o op o' → o'.transaction? tx = some t → Became o op tx t := by
    intro o' hc h
    have hset : ∀ {tx' : TransactionId} {t' : OutboxTransaction} (o₁ : Outbox)
        (new : Option OutboxTransaction), o₁.transactions = o.transactions →
        o.transaction? tx' = some t' → (o₁.setTransaction tx' new).transaction? tx = some t →
        tx = tx' ∧ new = some t ∨ o.transaction? tx = some t := by
      intro tx' t' o₁ new hsame ht' h
      have ht₁ : o₁.transaction? tx' = some t' := by rw [transaction?, hsame]; exact ht'
      rw [transaction?_set ht₁] at h
      split at h
      · exact .inl ⟨‹_›, h⟩
      · rw [transaction?, hsame] at h
        exact .inr h
    cases hc with
    | idle => exact .same h
    | begin =>
      rw [transaction?, begin, List.getElem?_append] at h
      split at h
      · exact .same h
      · rename_i hlt
        cases hn : tx - o.transactions.length with
        | zero =>
          simp only [hn, List.getElem?_cons_zero, Option.join_some, Option.some.injEq] at h
          subst h
          exact .begun rfl (Nat.le_antisymm (Nat.le_of_sub_eq_zero hn) (Nat.le_of_not_lt hlt))
        | succ n => simp [hn] at h
    | stage entry ht' hop =>
      rcases hset _ _ rfl ht' h with ⟨rfl, e⟩ | h
      · cases e
        exact .staged ht' hop entry
      · exact .same h
    | lock limit ht' =>
      rcases hset _ _ rfl ht' h with ⟨rfl, e⟩ | h
      · cases e
        exact .locked ht' rfl
      · exact .same h
    | marks ids ht' =>
      rcases hset _ _ rfl ht' h with ⟨rfl, e⟩ | h
      · cases e
        exact .marked ht' rfl
      · exact .same h
    | apply ht' =>
      rcases hset _ _ rfl ht' h with ⟨rfl, e⟩ | h
      · cases e
      · exact .same h
    | refuse ht' =>
      rcases hset _ _ rfl ht' h with ⟨rfl, e⟩ | h
      · cases e
      · exact .same h
    | discard ht' hop =>
      rcases hset _ _ rfl ht' h with ⟨rfl, e⟩ | h
      · cases e
      · exact .same h
    | failing => exact .same h
  exact change (step_change o op) h

/-- An operation on one transaction: what another one is, it was before. -/
theorem transaction?_of_step {tx' : TransactionId} (hop : op.transaction? = some tx') (hne : tx ≠ tx')
    (h : (o.step op).transaction? tx = some t) : o.transaction? tx = some t := by
  have other : op.transaction? ≠ some tx := fun e => hne (Option.some.inj (e.symm.trans hop))
  cases became h with
  | begun hbegin =>
    rw [hbegin] at hop
    cases hop
  | same h' => exact h'
  | staged _ hop' => exact absurd hop'.1 other
  | locked _ hop' => exact absurd (congrArg Operation.transaction? hop') other
  | marked _ hop' => exact absurd (congrArg Operation.transaction? hop') other

/-! ## What becomes of its own transaction -/

theorem transaction?_begin (o : Outbox) :
    (o.step .begin).transaction? o.transactions.length = some {} := by
  simp [step, begin, transaction?]

theorem transaction?_fetch (ht : o.transaction? tx = some t) (limit : Nat) :
    (o.step (.fetch tx limit)).transaction? tx =
      some { t with locked := t.locked ++ (o.available limit).map (·.id) } := by
  simp only [step, fetch_of_open ht, Option.map_some, Option.getD_some, lock]
  exact (transaction?_set ht tx _).trans (if_pos rfl)

theorem transaction?_mark (ht : o.transaction? tx = some t) (ids : List Int) :
    (o.step (.mark tx ids)).transaction? tx = some { t with marks := t.marks ++ ids } := by
  simp only [step, mark_of_open ht, Option.getD_some]
  exact (transaction?_set ht tx _).trans (if_pos rfl)

theorem transaction?_finish (ht : o.transaction? tx = some t) (t' : OutboxTransaction) :
    (o.finish tx t').transaction? tx = none :=
  (transaction?_set ht tx none).trans (if_pos rfl)

theorem transaction?_commit (ht : o.transaction? tx = some t) :
    (o.step (.commit tx)).transaction? tx = none := by
  rcases Nat.eq_zero_or_pos o.failingCommits with hf | hf
  · simp only [step, commit_of_open ht hf, Option.map_some, Option.getD_some]
    exact transaction?_finish ht t
  · simp only [step, commit_of_failing ht hf, Option.map_some, Option.getD_some]
    exact transaction?_finish ht t

theorem transaction?_rollback (ht : o.transaction? tx = some t) :
    (o.step (.rollback tx)).transaction? tx = none := by
  simp only [step, rollback_of_open ht, Option.getD_some]
  exact transaction?_finish ht t

/-- Rows change by commits only. -/
theorem rows_step (hop : ∀ tx, op ≠ .commit tx) : (o.step op).rows = o.rows := by
  have change : ∀ {o'}, Change o op o' → o'.rows = o.rows := by
    intro o' hc
    cases hc with
    | apply => exact absurd rfl (hop _)
    | _ => rfl
  exact change (step_change o op)

/-! ## Marks on rows that are held -/

/-- Transactions mark only rows that they hold, and stage only rows that are not published. -/
structure Careful (o : Outbox) : Prop where
  marks : ∀ tx t, o.transaction? tx = some t → ∀ id ∈ t.marks, id ∈ t.locked
  inserts : ∀ tx t, o.transaction? tx = some t → ∀ row ∈ t.inserts, row.published = false

theorem careful_empty : Careful {} :=
  ⟨fun tx t h => by simp [transaction?] at h, fun tx t h => by simp [transaction?] at h⟩

theorem Careful.step (h : o.Careful)
    (hop : ∀ tx ids t, op = .mark tx ids → o.transaction? tx = some t → ∀ id ∈ ids, id ∈ t.locked) :
    (o.step op).Careful := by
  refine ⟨fun tx t ht id hid => ?_, fun tx t ht row hrow => ?_⟩
  · cases became ht with
    | begun => cases hid
    | same h' => exact h.marks tx t h' id hid
    | staged h' => exact h.marks tx _ h' id hid
    | locked h' => exact List.mem_append_left _ (h.marks tx _ h' id hid)
    | marked h' hmark =>
      rcases List.mem_append.mp hid with hid | hid
      · exact h.marks tx _ h' id hid
      · exact hop tx _ _ hmark h' id hid
  · cases became ht with
    | begun => cases hrow
    | same h' => exact h.inserts tx t h' row hrow
    | staged h' _ entry =>
      rcases List.mem_append.mp hrow with hrow | hrow
      · exact h.inserts tx _ h' row hrow
      · rw [List.mem_singleton.mp hrow]
        rfl
    | locked h' => exact h.inserts tx _ h' row hrow
    | marked h' => exact h.inserts tx _ h' row hrow

theorem Careful.step_of_ne (h : o.Careful) (hop : ∀ tx ids, op ≠ .mark tx ids) :
    (o.step op).Careful :=
  h.step fun tx ids _ e => absurd e (hop tx ids)

/-- A row that another transaction holds stays as it is. -/
theorem mem_rows_step (h : o.WellFormed) (hc : o.Careful) (ht : o.transaction? tx = some t)
    (hop : op.transaction? ≠ some tx) {row : OutboxEntry} (hrow : row ∈ o.rows)
    (hid : row.id ∈ t.locked) : row ∈ (o.step op).rows := by
  have change : ∀ {o'}, Change o op o' → row ∈ o'.rows := by
    intro o' hch
    cases hch with
    | @apply tx' t' ht' =>
      have hmark : row.id ∉ t'.marks := fun hmem =>
        hop (congrArg some (h.locks.eq_of_mem ht' ht (hc.marks _ _ ht' _ hmem) hid))
      refine ((applied_perm (h.ids.inserts ht')).mem_iff).mpr ?_
      rw [← OutboxEntry.markedIn_of_not_mem hmark]
      exact List.mem_map_of_mem (List.mem_append_left _ hrow)
    | _ => exact hrow
  exact change (step_change o op)

/-! ## Which rows are published -/

/-- Is there a committed row of this id that is published? -/
def isPublished (o : Outbox) (id : Int) : Bool :=
  o.rows.any fun row => row.id == id && row.published

theorem isPublished_iff {id : Int} :
    o.isPublished id = true ↔ ∃ row ∈ o.rows, row.id = id ∧ row.published = true := by
  simp [isPublished]

/-- A commit publishes what it marks. -/
theorem isPublished_apply (h : o.WellFormed) (hc : o.Careful) (ht : o.transaction? tx = some t)
    {id : Int} :
    { o with rows := applied t o.rows }.isPublished id = true ↔
      o.isPublished id = true ∨ id ∈ t.marks ∧ ∃ row ∈ o.rows ++ t.inserts, row.id = id := by
  have hmem : ∀ row, row ∈ applied t o.rows ↔
      row ∈ (o.rows ++ t.inserts).map (OutboxEntry.markedIn t.marks) :=
    fun row => (applied_perm (h.ids.inserts ht)).mem_iff
  rw [isPublished_iff, isPublished_iff]
  constructor
  · rintro ⟨row', hrow', hid, hpub⟩
    obtain ⟨row, hrow, rfl⟩ := List.mem_map.mp ((hmem row').mp hrow')
    rw [OutboxEntry.id_markedIn] at hid
    rcases OutboxEntry.published_markedIn.mp hpub with hpub | hmark
    · rcases List.mem_append.mp hrow with hrow | hrow
      · exact .inl ⟨row, hrow, hid, hpub⟩
      · rw [hc.inserts tx t ht row hrow] at hpub
        cases hpub
    · exact .inr ⟨hid ▸ hmark, row, hrow, hid⟩
  · have marked : ∀ row ∈ o.rows ++ t.inserts, row.id = id → row.published = true ∨ id ∈ t.marks →
        ∃ row' ∈ applied t o.rows, row'.id = id ∧ row'.published = true := by
      intro row hrow hid hpub
      refine ⟨row.markedIn t.marks, (hmem _).mpr (List.mem_map_of_mem hrow), ?_, ?_⟩
      · rw [OutboxEntry.id_markedIn, hid]
      · exact OutboxEntry.published_markedIn.mpr (hid ▸ hpub)
    rintro (⟨row, hrow, hid, hpub⟩ | ⟨hmark, row, hrow, hid⟩)
    · exact marked row (List.mem_append_left _ hrow) hid (.inl hpub)
    · exact marked row hrow hid (.inr hmark)

theorem isPublished_commit (h : o.WellFormed) (hc : o.Careful) (ht : o.transaction? tx = some t)
    (hf : o.failingCommits = 0) {id : Int} :
    (o.step (.commit tx)).isPublished id = true ↔
      o.isPublished id = true ∨ id ∈ t.marks ∧ ∃ row ∈ o.rows ++ t.inserts, row.id = id := by
  rw [← isPublished_apply h hc ht]
  simp only [step, commit_of_open ht hf]
  rfl

/-- A commit that fails publishes nothing. -/
theorem isPublished_commit_failing (hf : 0 < o.failingCommits) (tx : TransactionId) (id : Int) :
    (o.step (.commit tx)).isPublished id = o.isPublished id := by
  cases ht : o.transaction? tx with
  | none => rw [step_of_ended rfl ht]
  | some t =>
    simp only [step, commit_of_failing ht hf]
    rfl

/-- An operation on a transaction that has marked nothing publishes nothing. -/
theorem isPublished_step (h : o.WellFormed) (hc : o.Careful)
    (hop : ∀ tx t, op = .commit tx → o.transaction? tx = some t → t.marks = []) (id : Int) :
    (o.step op).isPublished id = o.isPublished id := by
  have change : ∀ {o'}, Change o op o' → o'.isPublished id = o.isPublished id := by
    intro o' hch
    cases hch with
    | @apply tx t ht =>
      refine Bool.eq_iff_iff.mpr ((isPublished_apply h hc ht).trans ?_)
      simp [hop tx t rfl ht]
    | _ => rfl
  exact change (step_change o op)

end Courier.Outbox
