import Courier.Proofs.Outbox.Isolation

/-!
# What transactions have done

A history is what the users of an outbox know of their transactions: which rows these have written
and under which ids, which ids they have fetched and marked, and how they ended. `History.note` reads
it off the answers of the operations, and `noted` says what each operation adds to it.

`History.rows` are the rows that a history stands for: those that committed transactions have
written, in the order in which their ids were given out, published if a committed transaction has
marked them. The order of the commits plays no part in it.
-/

namespace Courier.Outbox

/-- What transactions have done, each thing with the transaction that did it. -/
structure History where
  /-- The rows that were written. -/
  inserts : List (TransactionId × OutboxEntry) := []
  /-- Ids of the rows that were fetched. -/
  fetches : List (TransactionId × Int) := []
  /-- Ids that were marked as published. -/
  marks : List (TransactionId × Int) := []
  /-- Transactions whose commit was answered with success. -/
  commits : List TransactionId := []
  /-- Transactions that were rolled back or let go, or whose commit failed. -/
  discards : List TransactionId := []

namespace History

/-- Note what an operation is answered. -/
def note (h : History) (o : Outbox) : Operation → History
  | .insert tx entry =>
    match o.insert tx entry with
    | some (id, _) => { h with inserts := h.inserts ++ [(tx, entry.row id)] }
    | none => h
  | .emit tx now event =>
    match NewEntry.ofEvent now event, o.emit tx now event with
    | .ok entry, some (.ok id, _) => { h with inserts := h.inserts ++ [(tx, entry.row id)] }
    | _, _ => h
  | .fetch tx limit =>
    match o.fetch tx limit with
    | some (rows, _) =>
      { h with fetches := h.fetches ++ (rows.map (·.id)).map fun id => (tx, id) }
    | none => h
  | .mark tx ids =>
    match o.mark tx ids with
    | some _ => { h with marks := h.marks ++ ids.map fun id => (tx, id) }
    | none => h
  | .commit tx =>
    match o.commit tx with
    | some (.ok (), _) => { h with commits := h.commits ++ [tx] }
    | some (.error _, _) => { h with discards := h.discards ++ [tx] }
    | none => h
  | .rollback tx | .drop tx =>
    match o.rollback tx with
    | some _ => { h with discards := h.discards ++ [tx] }
    | none => h
  | .begin | .failNextCommits _ => h

/-- Note what operations are answered, one after another. -/
def noteAll (h : History) (o : Outbox) : List Operation → History
  | [] => h
  | op :: operations => (h.note o op).noteAll (o.step op) operations

/-- What one transaction has done. -/
def of {α : Type} (tx : TransactionId) (deeds : List (TransactionId × α)) : List α :=
  (deeds.filter (·.1 == tx)).map (·.2)

/-- What one transaction has staged and locked. -/
def transaction (h : History) (tx : TransactionId) : OutboxTransaction where
  inserts := of tx h.inserts
  marks := of tx h.marks
  locked := of tx h.fetches

/-- Every transaction has marked only what it has fetched or written itself. -/
def Own (h : History) : Prop :=
  ∀ mark ∈ h.marks, mark ∈ h.fetches ∨ mark ∈ h.inserts.map fun (tx, row) => (tx, row.id)

instance (h : History) : Decidable h.Own :=
  inferInstanceAs (Decidable (∀ _ ∈ _, _))

/-- The ids that committed transactions have marked. -/
def published (h : History) : List Int :=
  (h.marks.filter (·.1 ∈ h.commits)).map (·.2)

/-- The rows that committed transactions have written, with the marks of committed transactions. -/
def rows (h : History) : List OutboxEntry :=
  (h.inserts.filter (·.1 ∈ h.commits)).map fun (_, row) => row.markedIn h.published

/-! ## One thing more -/

variable {α : Type} {tx : TransactionId} {h : History}

/-- What others do is none of a transaction's deeds. -/
theorem of_append (deeds : List (TransactionId × α)) (tx other : TransactionId) (more : List α) :
    of other (deeds ++ more.map fun a => (tx, a)) =
      if other = tx then of other deeds ++ more else of other deeds := by
  by_cases e : other = tx
  · subst e
    simp [of, List.filter_map, Function.comp_def]
  · simp [of, List.filter_map, Function.comp_def, e, Ne.symm e]

theorem mem_of {a : α} {deeds : List (TransactionId × α)} : a ∈ of tx deeds ↔ (tx, a) ∈ deeds := by
  simp [of]

theorem mem_published {id : Int} :
    id ∈ h.published ↔ ∃ tx ∈ h.commits, id ∈ (h.transaction tx).marks := by
  simp only [published, List.mem_map, List.mem_filter, decide_eq_true_eq, transaction, mem_of]
  constructor
  · rintro ⟨⟨tx, id⟩, ⟨hmark, htx⟩, rfl⟩
    exact ⟨tx, htx, hmark⟩
  · rintro ⟨tx, htx, hmark⟩
    exact ⟨(tx, id), ⟨hmark, htx⟩, rfl⟩

theorem mem_rows {row : OutboxEntry} :
    row ∈ h.rows ↔ ∃ tx ∈ h.commits, ∃ written ∈ (h.transaction tx).inserts,
      row = written.markedIn h.published := by
  simp only [rows, List.mem_map, List.mem_filter, decide_eq_true_eq, transaction, mem_of]
  constructor
  · rintro ⟨⟨tx, written⟩, ⟨hwritten, htx⟩, rfl⟩
    exact ⟨tx, htx, written, hwritten, rfl⟩
  · rintro ⟨tx, htx, written, hwritten, rfl⟩
    exact ⟨(tx, written), ⟨hwritten, htx⟩, rfl⟩

end History

/-! ## What an operation adds -/

/-- What an operation does to an outbox and to the history. -/
inductive Noted (o : Outbox) (h : History) : Operation → Outbox → History → Prop where
  | idle {op : Operation} : Noted o h op o h
  | begin : Noted o h .begin o.begin.2 h
  | failing (count : Nat) : Noted o h (.failNextCommits count) (o.failNextCommits count) h
  | insert {op : Operation} {tx : TransactionId} {t : OutboxTransaction} (entry : NewEntry)
      (ht : o.transaction? tx = some t) :
      Noted o h op (o.stage tx t entry)
        { h with inserts := h.inserts ++ [entry.row (o.lastId + 1)].map fun row => (tx, row) }
  | fetch {tx : TransactionId} {t : OutboxTransaction} (limit : Nat)
      (ht : o.transaction? tx = some t) :
      Noted o h (.fetch tx limit) (o.lock tx t limit)
        { h with fetches := h.fetches ++ ((o.available limit).map (·.id)).map fun id => (tx, id) }
  | mark {tx : TransactionId} {t : OutboxTransaction} (ids : List Int)
      (ht : o.transaction? tx = some t) :
      Noted o h (.mark tx ids) (o.setTransaction tx (some { t with marks := t.marks ++ ids }))
        { h with marks := h.marks ++ ids.map fun id => (tx, id) }
  | commit {tx : TransactionId} {t : OutboxTransaction} (ht : o.transaction? tx = some t)
      (hf : o.failingCommits = 0) :
      Noted o h (.commit tx) ({ o with rows := applied t o.rows }.finish tx t)
        { h with commits := h.commits ++ [tx] }
  | discard {op : Operation} {tx : TransactionId} {t : OutboxTransaction} (failing : Nat)
      (ht : o.transaction? tx = some t) :
      Noted o h op ({ o with failingCommits := failing }.finish tx t)
        { h with discards := h.discards ++ [tx] }

variable {o : Outbox} {op : Operation} {h : History} {tx : TransactionId} {t : OutboxTransaction}

/-- An operation on a transaction that has ended is not noted. -/
theorem note_of_ended (hop : op.transaction? = some tx) (ht : o.transaction? tx = none) :
    h.note o op = h := by
  cases op <;> simp only [Operation.transaction?, reduceCtorEq, Option.some.injEq] at hop <;>
    subst hop
  case emit now event =>
    simp only [History.note, emit]
    cases NewEntry.ofEvent now event <;> simp [insert, ht]
  all_goals simp [History.note, insert, fetch, mark, commit, rollback, ht]

theorem noted (o : Outbox) (h : History) (op : Operation) :
    Noted o h op (o.step op) (h.note o op) := by
  cases htx : op.transaction? with
  | none =>
    cases op <;> cases htx
    · exact .begin
    · exact .failing _
  | some tx =>
    cases ht : o.transaction? tx with
    | none =>
      rw [step_of_ended htx ht, note_of_ended htx ht]
      exact .idle
    | some t =>
      cases op <;> simp only [Operation.transaction?, reduceCtorEq, Option.some.injEq] at htx <;>
        subst htx
      case insert entry =>
        simp only [step, History.note, insert_of_open ht, Option.map_some, Option.getD_some]
        exact .insert entry ht
      case emit now event =>
        simp only [step, History.note, emit_of_open ht]
        cases NewEntry.ofEvent now event with
        | error cause => exact .idle
        | ok entry => exact .insert entry ht
      case fetch limit =>
        simp only [step, History.note, fetch_of_open ht, Option.map_some, Option.getD_some]
        exact .fetch limit ht
      case mark ids =>
        simp only [step, History.note, mark_of_open ht, Option.getD_some]
        exact .mark ids ht
      case commit =>
        rcases Nat.eq_zero_or_pos o.failingCommits with hf | hf
        · simp only [step, History.note, commit_of_open ht hf, Option.map_some, Option.getD_some]
          exact .commit ht hf
        · simp only [step, History.note, commit_of_failing ht hf, Option.map_some, Option.getD_some]
          exact .discard _ ht
      all_goals
        simp only [step, History.note, rollback_of_open ht, Option.getD_some]
        exact .discard _ ht

end Courier.Outbox
