import Courier.Error
import Courier.Outbox.Entry

/-!
# The in-memory outbox

Transactions stage rows and marks; a commit applies them, a rollback and a failed commit discard
them. Rows that a transaction has fetched stay locked until it ends, and no other fetch sees them
meanwhile. Ids are given when a row is staged, so a transaction that does not commit leaves a gap.

Transactions are numbered from zero in the order of their making; one that has ended is gone.
-/

namespace Courier

/-- A transaction that has not ended. -/
structure OutboxTransaction where
  inserts : List OutboxEntry := []
  /-- Ids to be marked as published. -/
  marks : List Int := []
  /-- Ids of the rows it keeps locked. -/
  locked : List Int := []

/-- A transaction, by the number of its making. -/
abbrev TransactionId := Nat

/-- An outbox in memory. -/
structure Outbox where
  /-- Committed rows, in ascending order of their ids. -/
  rows : List OutboxEntry := []
  /-- Ids of rows that are locked by some transaction. -/
  locked : List Int := []
  lastId : Int := 0
  /-- How many of the next commits fail. -/
  failingCommits : Nat := 0
  transactions : List (Option OutboxTransaction) := []

namespace Outbox

/-- Put a row among rows in the order of their ids, in place of one with the same id. -/
def insertRow (row : OutboxEntry) : List OutboxEntry → List OutboxEntry
  | [] => [row]
  | r :: rest =>
    if row.id < r.id then row :: r :: rest
    else if row.id = r.id then row :: rest
    else r :: insertRow row rest

/-- Turn the row with this id published, if there is one. -/
def markRow (id : Int) (rows : List OutboxEntry) : List OutboxEntry :=
  rows.map fun row => if row.id = id then { row with published := true } else row

theorem mem_insertRow_self (row : OutboxEntry) (rows : List OutboxEntry) :
    row ∈ insertRow row rows := by
  induction rows with
  | nil => simp [insertRow]
  | cons r rest ih =>
    simp only [insertRow]
    split
    · simp
    · split
      · simp
      · exact List.mem_cons_of_mem r ih

@[simp] theorem map_id_markRow (id : Int) (rows : List OutboxEntry) :
    (markRow id rows).map (·.id) = rows.map (·.id) := by
  simp only [markRow, List.map_map]
  refine List.map_congr_left fun row _ => ?_
  simp only [Function.comp_apply]
  split <;> rfl

def unpublishedCount (o : Outbox) : Nat :=
  (o.rows.filter fun row => !row.published).length

/-- Make the next commits fail. -/
def failNextCommits (o : Outbox) (count : Nat) : Outbox :=
  { o with failingCommits := count }

/-- The transaction, if it has not ended. -/
def transaction? (o : Outbox) (tx : TransactionId) : Option OutboxTransaction :=
  o.transactions[tx]?.join

/-- Start a transaction. -/
def begin (o : Outbox) : TransactionId × Outbox :=
  (o.transactions.length, { o with transactions := o.transactions ++ [some {}] })

/-- Replace a transaction. -/
def setTransaction (o : Outbox) (tx : TransactionId) (t : Option OutboxTransaction) : Outbox :=
  { o with transactions := o.transactions.set tx t }

/-- Stage a row; its id is the next one. -/
def insert (o : Outbox) (tx : TransactionId) (entry : NewEntry) : Option (Int × Outbox) := do
  let t ← o.transaction? tx
  let id := o.lastId + 1
  let row : OutboxEntry :=
    ⟨id, entry.eventName, entry.payload, entry.headers, entry.createdAt, false⟩
  some (id, { o with lastId := id }.setTransaction tx
    (some { t with inserts := t.inserts ++ [row] }))

/-- The rows that a fetch finds: committed, unpublished and unlocked, the first ones. -/
def available (o : Outbox) (limit : Nat) : List OutboxEntry :=
  (o.rows.filter fun row => !row.published && !o.locked.contains row.id).take limit

/-- Fetch rows and lock them. -/
def fetch (o : Outbox) (tx : TransactionId) (limit : Nat) :
    Option (List OutboxEntry × Outbox) := do
  let t ← o.transaction? tx
  let rows := o.available limit
  let ids := rows.map (·.id)
  some (rows, { o with locked := o.locked ++ ids }.setTransaction tx
    (some { t with locked := t.locked ++ ids }))

/-- Stage marks. -/
def mark (o : Outbox) (tx : TransactionId) (ids : List Int) : Option Outbox := do
  let t ← o.transaction? tx
  some (o.setTransaction tx (some { t with marks := t.marks ++ ids }))

/-- The transaction is over and its rows are unlocked. -/
def finish (o : Outbox) (tx : TransactionId) (t : OutboxTransaction) : Outbox :=
  { o with locked := o.locked.filter fun id => !t.locked.contains id }.setTransaction tx none

/-- End a transaction and discard what it staged. -/
def rollback (o : Outbox) (tx : TransactionId) : Option Outbox := do
  let t ← o.transaction? tx
  some (o.finish tx t)

/-- The rows after the inserts and marks of a transaction. -/
def applied (t : OutboxTransaction) (rows : List OutboxEntry) : List OutboxEntry :=
  let rows := t.inserts.foldl (fun rows row => insertRow row rows) rows
  t.marks.foldl (fun rows id => markRow id rows) rows

/-- End a transaction and apply what it staged, unless commits are told to fail. -/
def commit (o : Outbox) (tx : TransactionId) : Option (Except CommitError Unit × Outbox) := do
  let t ← o.transaction? tx
  if 0 < o.failingCommits then
    some (.error .commitFailed, { o with failingCommits := o.failingCommits - 1 }.finish tx t)
  else
    some (.ok (), { o with rows := applied t o.rows }.finish tx t)

/-- Write an event to the outbox as part of a transaction. -/
def emit (o : Outbox) (tx : TransactionId) (now : Int) (event : Event) :
    Option (Except OutboxError Int × Outbox) :=
  match NewEntry.ofEvent now event with
  | .error cause => do
    let _ ← o.transaction? tx
    some (.error (.encoding cause), o)
  | .ok entry => do
    let (id, o) ← o.insert tx entry
    some (.ok id, o)

end Outbox

end Courier
