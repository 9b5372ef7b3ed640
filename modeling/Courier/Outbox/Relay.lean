import Courier.Error
import Courier.Outbox.Entry
import Courier.Outbox.RelayConfig
import Courier.Program

/-!
# The relay

A relay moves rows from the outbox to a publisher. In one cycle it fetches a batch of unpublished
rows, sends them in order until one is refused, marks those that were sent, and commits; what goes
wrong before the commit rolls the transaction back. A running relay does one cycle at each tick of
its clock until it is cancelled, and reports failed cycles to its hook.

The relay is a program over the requests below, so it says nothing of what the storage, the
publisher and the hook make of them.
-/

namespace Courier.Relay

/-- What a hook is told. -/
inductive Hook where
  | startup
  | shutdown
  | fetched (count : Nat)
  | published (id : Int)
  | publishError (id : Int) (cause : String)
  | committed (count : Nat)
  | pollError (error : RelayError)
  deriving DecidableEq, Repr

/-- What a relay asks of its surroundings. Transactions are known by number; failures of the
storage and of the publisher by their texts. -/
inductive Request where
  | begin
  | fetch (tx limit : Nat)
  /-- Send one row to the broker. -/
  | send (entry : OutboxEntry)
  | mark (tx : Nat) (ids : List Int)
  | commit (tx : Nat)
  | rollback (tx : Nat)
  | hook (event : Hook)
  /-- Wait for the tick that is due at a time; the answer is when it came, or nothing if the relay
  was cancelled first. -/
  | tick (due : Nat)

instance : Requests Request where
  Answer
    | .begin => Except String Nat
    | .fetch .. => Except String (List OutboxEntry)
    | .send _ => Except String Unit
    | .mark .. => Except String Unit
    | .commit _ => Except String Unit
    | .rollback _ => Except String Unit
    | .hook _ => Unit
    | .tick _ => Option Nat

/-- Programs of a relay. -/
abbrev Action := Program Request

def begin : Action (Except String Nat) :=
  Program.request Request.begin

def fetch (tx limit : Nat) : Action (Except String (List OutboxEntry)) :=
  Program.request (Request.fetch tx limit)

def send (entry : OutboxEntry) : Action (Except String Unit) :=
  Program.request (Request.send entry)

def mark (tx : Nat) (ids : List Int) : Action (Except String Unit) :=
  Program.request (Request.mark tx ids)

def commit (tx : Nat) : Action (Except String Unit) :=
  Program.request (Request.commit tx)

def rollback (tx : Nat) : Action (Except String Unit) :=
  Program.request (Request.rollback tx)

def tell (event : Hook) : Action Unit :=
  Program.request (Request.hook event)

def tick (due : Nat) : Action (Option Nat) :=
  Program.request (Request.tick due)

/-- Roll back and answer something else, whatever the rollback answers. -/
def abort {α : Type} (tx : Nat) (result : α) : Action α := do
  let _ ← rollback tx
  pure result

/-- Send rows in order until one is refused; the answer holds the ids of those that were sent. -/
def sendAll : List OutboxEntry → Action (List Int)
  | [] => pure []
  | entry :: rest => do
    match ← send entry with
    | .ok () =>
      tell (.published entry.id)
      let ids ← sendAll rest
      pure (entry.id :: ids)
    | .error cause =>
      tell (.publishError entry.id cause)
      pure []

/-- One cycle. The answer is how many rows were marked as published. -/
def poll (batchSize : Nat) : Action (Except RelayError Nat) := do
  match ← begin with
  | .error cause => pure (.error ⟨cause⟩)
  | .ok tx =>
    match ← fetch tx batchSize with
    | .error cause => abort tx (.error ⟨cause⟩)
    | .ok [] => abort tx (.ok 0)
    | .ok entries =>
      tell (.fetched entries.length)
      match ← sendAll entries with
      | [] => abort tx (.ok 0)
      | ids =>
        match ← mark tx ids with
        | .error cause => abort tx (.error ⟨cause⟩)
        | .ok () =>
          match ← commit tx with
          | .error cause => pure (.error ⟨cause⟩)
          | .ok () =>
            tell (.committed ids.length)
            pure (.ok ids.length)

/-- How late a tick may come, in milliseconds, without moving the ticks behind it. -/
def lateness : Nat := 5

/-- When the tick behind one that was due and came at these times is due. -/
def nextTick (period due came : Nat) : Nat :=
  if due + lateness < came then came + period else due + period

/-- One turn of a running relay: wait for the tick, do a cycle. The answer is when the next tick is
due, or nothing if the relay has ended. -/
def turn (config : RelayConfig) (due : Nat) : Action (Option Nat) := do
  match ← tick due with
  | none =>
    tell .shutdown
    pure none
  | some came =>
    match ← poll config.batchSize with
    | .ok _ => pure ()
    | .error e => tell (.pollError e)
    pure (some (nextTick config.pollInterval.millis due came))

end Courier.Relay
