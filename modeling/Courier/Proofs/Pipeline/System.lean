import Courier.Proofs.Memory.Activities
import Courier.Proofs.Outbox.Operations
import Courier.Proofs.Pipeline.Cycle
import Courier.Proofs.Relay.Storage

/-!
# Writers, relays and brokers together

One outbox, the transactions that write to it, and the cycles of any number of relays, each with a
forwarder to one of any number of brokers. `System.step` is one event: a writer's operation, the start
of a cycle, one request of a cycle, or whatever else befalls a broker. `System.after` is a sequence of
events, so it is any interleaving of them.

A request of a cycle is answered by the outbox and the brokers as they are. What the pools answer
comes with the event, and may be anything. The hook is told at once: it answers nothing, so a cycle
never waits for it.

Beside what a service keeps, the system keeps account: of each cycle, the rows that the broker has
accepted from it and whether its commit failed (`Poll.hear`), and of the brokers' logs, the entries
that were added by requests of cycles (`Appended`).
-/

namespace Courier

namespace Pipeline

open Relay (Stage)

/-- Go on to the next request that is not for the hook. -/
def told {α : Type} : Program Request α → Program Request α
  | .done a => .done a
  | .ask (.storage (.hook _)) next => told (next ())
  | .ask r next => .ask r next

/-- A cycle at work, or one that has ended. -/
structure Poll where
  forwarder : Forwarder
  broker : Nat
  /-- What is left of it. -/
  rest : Program Request (Except RelayError Nat)
  tx : Option TransactionId := none
  /-- The rows that the broker has accepted from it. -/
  published : List OutboxEntry := []
  commitFailed : Bool := false

namespace Poll

def finished (p : Poll) : Bool :=
  match p.rest with
  | .done _ => true
  | .ask .. => false

/-- Has it published a row of this id? -/
def hasPublished (p : Poll) (id : Int) : Bool :=
  p.published.any (·.id == id)

/-- Keep account of an answer. -/
def hear (p : Poll) : (r : Request) → Requests.Answer r → Poll
  | .storage .begin, .ok tx => { p with tx := some tx }
  | .storage (.commit _), .error _ => { p with commitFailed := true }
  | .forward entry (.session (.publish ..)), .ok () =>
    { p with published := p.published ++ [entry] }
  | _, _ => p

end Poll

/-- An entry of a broker's log that was added by a request of a cycle. -/
structure Appended where
  poll : Nat
  broker : Nat
  /-- The row for which the request was made. -/
  entry : OutboxEntry
  publishing : Publishing
  /-- The number that the broker gave to the message. -/
  number : Nat

structure System where
  outbox : Outbox := {}
  brokers : Nat → Memory
  /-- Transactions that write. -/
  writers : List TransactionId := []
  polls : List Poll := []
  appended : List Appended := []

inductive Event where
  | write (op : Outbox.Operation)
  /-- Start a cycle. -/
  | poll (forwarder : Forwarder) (broker : Nat) (cancel : TokenId) (batchSize : Nat)
  /-- Answer the request that a cycle waits for; the pools answer this. -/
  | advance (poll : Nat) (pool : (r : Pooling.Request) → Requests.Answer r)
  | broker (broker : Nat) (activity : Memory.Activity)

namespace System

variable (s : System)

/-- Writers do not mark, and leave the transactions of cycles alone. -/
def mayWrite : Outbox.Operation → Bool
  | .begin => true
  | .failNextCommits _ => true
  | .mark .. => false
  | op => op.transaction?.any s.writers.contains

def write (op : Outbox.Operation) : System :=
  if s.mayWrite op then
    { s with
      outbox := s.outbox.step op
      writers := match op with
        | .begin => s.writers ++ [s.outbox.begin.1]
        | _ => s.writers }
  else s

def setBroker (broker : Nat) (m : Memory) : System :=
  { s with brokers := fun b => if b = broker then m else s.brokers b }

/-- Answer a request of a cycle. What the answer adds to the broker's log is written down. -/
def answer (poll : Nat) (p : Poll) (pool : (r : Pooling.Request) → Requests.Answer r) :
    (r : Request) → Requests.Answer r × System
  | .storage r =>
    let (a, outbox) := Outbox.serve r s.outbox
    (a, { s with outbox })
  | .forward entry (.session r) =>
    let (a, m) := Memory.answer r (s.brokers p.broker)
    let added := m.published.drop (s.brokers p.broker).published.length
    (a, { s.setBroker p.broker m with
      appended := s.appended ++ added.map (⟨poll, p.broker, entry, ·, m.lastMessageId⟩) })
  | .forward _ r => (pool r, s)

def advance (poll : Nat) (pool : (r : Pooling.Request) → Requests.Answer r) : System :=
  match s.polls[poll]? with
  | none => s
  | some p =>
    match p.rest with
    | .done _ => s
    | .ask r next =>
      let (a, s') := s.answer poll p pool r
      { s' with polls := s'.polls.set poll { p.hear r a with rest := told (next a) } }

def step : Event → System
  | .write op => s.write op
  | .poll forwarder broker cancel batchSize =>
    { s with polls := s.polls ++ [{
        forwarder, broker, rest := told (cycle forwarder cancel batchSize) }] }
  | .advance poll pool => s.advance poll pool
  | .broker broker activity => s.setBroker broker ((s.brokers broker).act activity)

/-- Any interleaving of events. -/
def after (events : List Event) : System :=
  events.foldl step s

end System

/-! ## Where a cycle stands -/

/-- Rows that a cycle has fetched: it keeps them locked, so they stay unpublished. -/
structure Holding (o : Outbox) (locked : List Int) (rows : List OutboxEntry) : Prop where
  nodup : (rows.map (·.id)).Nodup
  unpublished : ∀ row ∈ rows, row ∈ o.rows ∧ row.published = false ∧ row.id ∈ locked

/-- The account of a cycle and its transaction, at each stage. -/
def Poll.At (o : Outbox) (p : Poll) : Stage → Prop
  | .fresh => p.tx = none ∧ p.published = [] ∧ p.commitFailed = false
  | .begun tx =>
    p.tx = some tx ∧ p.published = [] ∧ p.commitFailed = false ∧ o.transaction? tx = some {}
  | .sending tx accepted todo =>
    p.tx = some tx ∧ p.published = accepted ∧ p.commitFailed = false ∧
      ∃ locked, o.transaction? tx = some { locked } ∧ Holding o locked (accepted ++ todo)
  | .marked tx accepted =>
    p.tx = some tx ∧ p.published = accepted ∧ p.commitFailed = false ∧
      ∃ locked, o.transaction? tx = some { marks := accepted.map (·.id), locked } ∧
        Holding o locked accepted
  | .ended => ∀ tx, p.tx = some tx → o.transaction? tx = none

/-- A cycle is at a stage: its account is, and what is left of it keeps to the protocol from there. -/
structure Poll.Tracks (o : Outbox) (p : Poll) (stage : Stage) : Prop where
  at_stage : p.At o stage
  obeys : p.rest.Obeys (Moves p.forwarder) (fun _ stage => stage = .ended) stage
  told : told p.rest = p.rest

theorem told_told {α : Type} (p : Program Request α) : told (told p) = told p := by
  induction p with
  | done a => rfl
  | ask r next ih =>
    cases r with
    | storage r => cases r <;> first | rfl | exact ih ()
    | forward entry r => rfl

theorem obeys_told {α : Type} {forwarder : Forwarder} {post : α → Stage → Prop}
    {p : Program Request α} {stage : Stage} (h : p.Obeys (Moves forwarder) post stage) :
    (told p).Obeys (Moves forwarder) post stage := by
  induction p with
  | done a => exact h
  | ask r next ih =>
    cases r with
    | storage r => cases r <;> first | exact h | exact ih () (h.next (.hook _))
    | forward entry r => exact h

theorem told_ne_hook {α : Type} (p : Program Request α) (event : Relay.Hook)
    (next : Unit → Program Request α) :
    told p ≠ Program.ask (Request.storage (.hook event)) next := by
  induction p with
  | done a => exact fun e => by cases e
  | ask r rest ih =>
    cases r with
    | forward entry r => exact fun e => by cases e
    | storage r =>
      cases r with
      | hook event' => exact ih ()
      | _ => exact fun e => by cases e

/-- A cycle has finished once it has ended, and not before. -/
theorem Poll.Tracks.finished_iff {o : Outbox} {p : Poll} {stage : Stage} (h : p.Tracks o stage) :
    p.finished = true ↔ stage = .ended := by
  obtain ⟨-, hobeys, htold⟩ := h
  cases hr : p.rest with
  | done result =>
    rw [hr] at hobeys
    simp only [finished, hr, true_iff]
    exact hobeys
  | ask r next =>
    rw [hr] at hobeys htold
    simp only [finished, hr, Bool.false_eq_true, false_iff]
    rintro rfl
    obtain ⟨⟨a, stage', hm⟩, -⟩ := hobeys
    cases hm with
    | hook event => exact told_ne_hook _ event next htold

end Pipeline

end Courier
