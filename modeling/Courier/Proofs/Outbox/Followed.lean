import Courier.Proofs.Outbox.History

/-!
# Following the transactions

A history knows what each transaction has staged and locked as long as the transaction has not ended
(`Current`), and nothing is added to it after that (`transaction_noteAll`). `Followed` says so of all
transactions, and that the ids of the rows ascend in the order in which these were written;
`Followed.noted` is one operation.
-/

namespace Courier.Outbox

open History (of)

variable {o : Outbox} {op : Operation} {h : History} {tx other : TransactionId}
  {t : OutboxTransaction}

/-! ## Transactions that have not ended -/

/-- What a transaction has staged and locked so far, which is nothing before it begins. It is gone
once the transaction has ended. -/
def stateOf (o : Outbox) (tx : TransactionId) : Option OutboxTransaction :=
  o.transactions[tx]?.getD (some {})

theorem stateOf_of_open (ht : o.transaction? tx = some t) : o.stateOf tx = some t := by
  rw [stateOf, Option.join_eq_some_iff.mp ht, Option.getD_some]

theorem stateOf_begin (o : Outbox) (tx : TransactionId) : o.begin.2.stateOf tx = o.stateOf tx := by
  simp only [stateOf, begin, List.getElem?_append]
  split
  · rfl
  · rename_i hlt
    rw [List.getElem?_eq_none (Nat.le_of_not_lt hlt)]
    cases tx - o.transactions.length <;> simp

/-- Replacing one transaction is all that an operation on it does to the transactions. -/
theorem stateOf_set {p : Outbox} (hsame : p.transactions = o.transactions)
    (ht : o.transaction? tx = some t) (new : Option OutboxTransaction) (other : TransactionId) :
    (p.setTransaction tx new).stateOf other = if other = tx then new else o.stateOf other := by
  simp only [stateOf, setTransaction, hsame, List.getElem?_set]
  by_cases e : tx = other
  · subst e
    simp [lt_of_transaction? ht]
  · rw [if_neg e, if_neg (Ne.symm e)]

/-- A transaction that is committed has ended, even if the commit fails. -/
theorem stateOf_commit (ht : o.transaction? tx = some t) :
    (o.step (.commit tx)).stateOf tx = none := by
  rcases Nat.eq_zero_or_pos o.failingCommits with hf | hf
  · simp only [step, commit_of_open ht hf, Option.map_some, Option.getD_some]
    exact (stateOf_set (p := { o with rows := _, locked := _ }) rfl ht none tx).trans (if_pos rfl)
  · simp only [step, commit_of_failing ht hf, Option.map_some, Option.getD_some]
    exact (stateOf_set (p := { o with failingCommits := _, locked := _ }) rfl ht none tx).trans
      (if_pos rfl)

/-! ## Following the transactions -/

/-- A transaction that has not ended has staged and locked what the history says. -/
def Current (o : Outbox) (h : History) (tx : TransactionId) : Prop :=
  ∀ t, o.stateOf tx = some t → t = h.transaction tx ∧ tx ∉ h.commits ∧ tx ∉ h.discards

theorem Current.of_open (hc : o.Current h tx) (ht : o.transaction? tx = some t) :
    t = h.transaction tx ∧ tx ∉ h.commits ∧ tx ∉ h.discards :=
  hc t (stateOf_of_open ht)

/-- A transaction goes on, and no other one is concerned. -/
theorem Current.set {p : Outbox} {h' : History} {t' : OutboxTransaction} (hc : o.Current h other)
    (hsame : p.transactions = o.transactions) (ht : o.transaction? tx = some t)
    (hcommits : h'.commits = h.commits) (hdiscards : h'.discards = h.discards)
    (hnew : other = tx → t = h.transaction other → t' = h'.transaction other)
    (hother : other ≠ tx → h'.transaction other = h.transaction other) :
    (p.setTransaction tx (some t')).Current h' other := by
  intro u hu
  rw [stateOf_set hsame ht] at hu
  rw [hcommits, hdiscards]
  split at hu
  · rename_i e
    subst e
    obtain ⟨heq, hnot⟩ := hc.of_open ht
    exact ⟨(Option.some.inj hu).symm.trans (hnew rfl heq), hnot⟩
  · rename_i e
    rw [hother e]
    exact hc u hu

/-- A transaction ends, and no other one is concerned. -/
theorem Current.finish {p : Outbox} {h' : History} (hc : o.Current h other)
    (hsame : p.transactions = o.transactions) (ht : o.transaction? tx = some t)
    (htransaction : ∀ other, h'.transaction other = h.transaction other)
    (hcommits : ∀ other ∈ h'.commits, other ∈ h.commits ∨ other = tx)
    (hdiscards : ∀ other ∈ h'.discards, other ∈ h.discards ∨ other = tx) :
    (p.finish tx t).Current h' other := by
  intro u hu
  replace hu : (if other = tx then none else o.stateOf other) = some u :=
    (stateOf_set hsame ht none other).symm.trans hu
  split at hu
  · cases hu
  · rename_i e
    obtain ⟨heq, hcommit, hdiscard⟩ := hc u hu
    refine ⟨heq.trans (htransaction other).symm, fun hmem => ?_, fun hmem => ?_⟩
    · exact (hcommits other hmem).elim hcommit e
    · exact (hdiscards other hmem).elim hdiscard e

variable {o' : Outbox} {h' : History}

theorem Noted.current (hn : Noted o h op o' h') (hc : o.Current h other) : o'.Current h' other := by
  cases hn with
  | idle => exact hc
  | begin =>
    intro t ht
    rw [stateOf_begin] at ht
    exact hc t ht
  | failing count => exact hc
  | insert entry ht =>
    refine hc.set rfl ht rfl rfl (fun e heq => ?_) fun e => ?_
    · simp only [heq, History.transaction, History.of_append, if_pos e]
    · simp only [History.transaction, History.of_append, if_neg e]
  | fetch limit ht =>
    refine hc.set rfl ht rfl rfl (fun e heq => ?_) fun e => ?_
    · simp only [heq, History.transaction, History.of_append, if_pos e]
    · simp only [History.transaction, History.of_append, if_neg e]
  | mark ids ht =>
    refine hc.set rfl ht rfl rfl (fun e heq => ?_) fun e => ?_
    · simp only [heq, History.transaction, History.of_append, if_pos e]
    · simp only [History.transaction, History.of_append, if_neg e]
  | commit ht =>
    exact hc.finish (p := { o with rows := _ }) rfl ht (fun _ => rfl)
      (fun other hmem => by simpa using hmem) fun other hmem => .inl hmem
  | discard failing ht =>
    exact hc.finish (p := { o with failingCommits := _ }) rfl ht (fun _ => rfl)
      (fun other hmem => .inl hmem) fun other hmem => by simpa using hmem

/-- A transaction that has ended does nothing more. -/
theorem Noted.ended (hn : Noted o h op o' h') (hend : o.stateOf tx = none) :
    h'.transaction tx = h.transaction tx ∧ o'.stateOf tx = none := by
  have other : ∀ {tx' t'}, o.transaction? tx' = some t' → tx ≠ tx' := by
    rintro tx' t' ht rfl
    rw [stateOf_of_open ht] at hend
    cases hend
  have gone : ∀ {p : Outbox} {tx' t'} (new : Option OutboxTransaction),
      p.transactions = o.transactions → o.transaction? tx' = some t' →
      (p.setTransaction tx' new).stateOf tx = none := by
    intro p tx' t' new hsame ht
    rw [stateOf_set hsame ht, if_neg (other ht), hend]
  cases hn with
  | idle => exact ⟨rfl, hend⟩
  | begin => exact ⟨rfl, by rw [stateOf_begin, hend]⟩
  | failing count => exact ⟨rfl, hend⟩
  | insert entry ht =>
    exact ⟨by simp only [History.transaction, History.of_append, if_neg (other ht)], gone _ rfl ht⟩
  | fetch limit ht =>
    exact ⟨by simp only [History.transaction, History.of_append, if_neg (other ht)], gone _ rfl ht⟩
  | mark ids ht =>
    exact ⟨by simp only [History.transaction, History.of_append, if_neg (other ht)], gone _ rfl ht⟩
  | commit ht => exact ⟨rfl, gone none rfl ht⟩
  | discard failing ht => exact ⟨rfl, gone none rfl ht⟩

theorem transaction_noteAll (hend : o.stateOf tx = none) (operations : List Operation) :
    (h.noteAll o operations).transaction tx = h.transaction tx := by
  induction operations generalizing o h with
  | nil => rfl
  | cons op operations ih =>
    obtain ⟨htransaction, hend'⟩ := (noted o h op).ended hend
    exact (ih hend').trans htransaction

/-- The history knows what each transaction has done. -/
structure Followed (o : Outbox) (h : History) : Prop where
  current : ∀ tx, o.Current h tx
  /-- A transaction ends once. -/
  discarded : ∀ tx ∈ h.discards, tx ∉ h.commits
  /-- Ids are given out in ascending order. -/
  ascending : h.inserts.Pairwise fun a b => a.2.id < b.2.id
  given : ∀ e ∈ h.inserts, e.2.id ≤ o.lastId
  unpublished : ∀ e ∈ h.inserts, e.2.published = false

theorem followed_empty : Followed {} {} where
  current tx t ht := by
    obtain rfl : {} = t := by simpa [stateOf] using ht
    exact ⟨rfl, by simp, by simp⟩
  discarded := by simp
  ascending := .nil
  given := by simp
  unpublished := by simp

theorem Followed.noted (hf : o.Followed h) (hn : Noted o h op o' h') : o'.Followed h' := by
  have current := fun tx => hn.current (hf.current tx)
  obtain ⟨hcurrent, hdiscarded, hascending, hgiven, hunpublished⟩ := hf
  cases hn with
  | insert entry ht =>
    refine ⟨current, hdiscarded, ?_, fun e he => ?_, fun e he => ?_⟩
    · refine List.pairwise_append.mpr ⟨hascending, List.pairwise_singleton _ _, fun a ha b hb => ?_⟩
      rw [List.map_singleton, List.mem_singleton] at hb
      subst hb
      exact Int.lt_add_one_of_le (hgiven a ha)
    · rcases List.mem_append.mp he with he | he
      · exact Int.le_trans (hgiven e he) (Int.le_add_one (Int.le_refl _))
      · rw [List.map_singleton, List.mem_singleton] at he
        subst he
        exact Int.le_refl _
    · rcases List.mem_append.mp he with he | he
      · exact hunpublished e he
      · rw [List.map_singleton, List.mem_singleton] at he
        subst he
        rfl
  | @commit tx t ht =>
    refine ⟨current, fun other hother hmem => ?_, hascending, hgiven, hunpublished⟩
    rcases List.mem_append.mp hmem with hmem | hmem
    · exact hdiscarded other hother hmem
    · obtain rfl := List.mem_singleton.mp hmem
      exact ((hcurrent other).of_open ht).2.2 hother
  | @discard _ tx t failing ht =>
    refine ⟨current, fun other hother hmem => ?_, hascending, hgiven, hunpublished⟩
    rcases List.mem_append.mp hother with hother | hother
    · exact hdiscarded other hother hmem
    · obtain rfl := List.mem_singleton.mp hother
      exact ((hcurrent other).of_open ht).2.1 hmem
  | _ => exact ⟨current, hdiscarded, hascending, hgiven, hunpublished⟩

end Courier.Outbox
