import Courier.Outbox.Relay
import Courier.Proofs.Relay.Storage

/-!
# Writers and one relay

One outbox, the transactions that write to it, and a relay that does one cycle after another.
`System.step` is one event: an operation of a writer, the start of a cycle, or one request of the
cycle at work. `System.after` is a sequence of events, so writers overlap with each other and with the
cycles in any way.

The requests of a cycle are answered by the outbox as it is; what the publisher answers comes with the
event. The system keeps account of the rows that the publisher was called with (`Handing`).

`InOrder` says in which sense rows are handed over in the order of their ids: behind a row that was
taken no smaller one comes for the first time. Of which smaller rows this is said, is a parameter.
-/

namespace Courier.Handover

/-- A call of the publisher. -/
structure Handing where
  row : OutboxEntry
  taken : Bool
  /-- The rows that were committed when the cycle fetched. -/
  committed : List OutboxEntry

/-- Was there a committed row of this id when the cycle fetched? -/
def Handing.saw (h : Handing) (id : Int) : Prop :=
  ∃ row ∈ h.committed, row.id = id

structure System where
  outbox : Outbox := {}
  /-- Transactions that write. -/
  writers : List TransactionId := []
  /-- What is left of the cycle at work, or the result of the last one. -/
  cycle : Relay.Action (Except RelayError Nat) := .done (.ok 0)
  /-- The rows that were committed at the last fetch. -/
  fetched : List OutboxEntry := []
  handed : List Handing := []

inductive Event where
  | write (op : Outbox.Operation)
  /-- Start a cycle, unless one is at work. -/
  | poll (batchSize : Nat)
  /-- Answer the request that the cycle waits for; to a row that is handed over the publisher answers
  this. -/
  | advance (publisher : Except String Unit)

namespace System

variable (s : System)

/-- Writers neither fetch nor mark, and leave the transactions of cycles alone. -/
def mayWrite : Outbox.Operation → Bool
  | .begin => true
  | .failNextCommits _ => true
  | .fetch .. => false
  | .mark .. => false
  | op => op.transaction?.any s.writers.contains

def write (op : Outbox.Operation) : System :=
  if s.mayWrite op then
    { s with
      outbox := s.outbox.step op
      writers := match op with
        | .begin => s.writers ++ [s.outbox.begin.1]
        | _ => s.writers }
  else s

/-- Write down a call of the publisher. -/
def hand (row : OutboxEntry) (taken : Bool) : System :=
  { s with handed := s.handed ++ [{ row, taken, committed := s.fetched }] }

/-- Answer a request of the cycle. -/
def answer (publisher : Except String Unit) : (r : Relay.Request) → Requests.Answer r × System
  | .send row => (publisher, s.hand row publisher.isOk)
  | .fetch tx limit =>
    let (a, outbox) := Outbox.serve (.fetch tx limit) s.outbox
    (a, { s with outbox, fetched := s.outbox.rows })
  | r =>
    let (a, outbox) := Outbox.serve r s.outbox
    (a, { s with outbox })

def advance (publisher : Except String Unit) : System :=
  match s.cycle with
  | .done _ => s
  | .ask r next =>
    let (a, s') := s.answer publisher r
    { s' with cycle := next a }

def poll (batchSize : Nat) : System :=
  match s.cycle with
  | .done _ => { s with cycle := Relay.poll batchSize }
  | .ask .. => s

def step : Event → System
  | .write op => s.write op
  | .poll batchSize => s.poll batchSize
  | .advance publisher => s.advance publisher

/-- Any interleaving of events. -/
def after (events : List Event) : System :=
  events.foldl step s

/-- The ids of the rows that the publisher has taken. -/
def taken : List Int :=
  (s.handed.filter (·.taken)).map (·.row.id)

theorem mem_taken {id : Int} :
    id ∈ s.taken ↔ ∃ h ∈ s.handed, h.taken = true ∧ h.row.id = id := by
  simp only [taken, List.mem_map, List.mem_filter, and_assoc]

@[simp] theorem taken_hand_true (row : OutboxEntry) :
    (s.hand row true).taken = s.taken ++ [row.id] := by
  simp [taken, hand]

@[simp] theorem taken_hand_false (row : OutboxEntry) : (s.hand row false).taken = s.taken := by
  simp [taken, hand]

end System

/-- Behind a row that was taken, no smaller one is handed over for the first time, of those that
count. -/
def InOrder (counts : Handing → Int → Prop) (handed : List Handing) : Prop :=
  ∀ (i j : Nat) (g h : Handing), handed[i]? = some g → handed[j]? = some h → i < j →
    g.taken = true → h.row.id < g.row.id → counts g h.row.id →
    ∃ k ∈ handed.take j, k.row.id = h.row.id

/-- Whenever a row is handed over, all smaller ones that were committed when the cycle fetched have
been taken. -/
def WithoutGaps (handed : List Handing) : Prop :=
  ∀ (j : Nat) (h : Handing), handed[j]? = some h → ∀ id, h.saw id → id < h.row.id →
    ∃ g ∈ handed.take j, g.taken = true ∧ g.row.id = id

end Courier.Handover
