import Courier.Outbox.Store
import Courier.Simulation.Reply

/-!
# The outbox bench

One in-memory outbox that is used one step at a time, through transactions and through a bus that
writes events. Transactions are named by handles that count them; one that has ended is gone.
-/

namespace Courier.Simulation.OutboxBench

/-- A step. -/
inductive Step where
  | begin
  | insert (tx : Nat) (entry : NewEntry)
  | fetch (tx limit : Nat)
  | mark (tx : Nat) (ids : List Int)
  | commit (tx : Nat)
  | rollback (tx : Nat)
  | drop (tx : Nat)
  /-- Write an event; a storage that refuses says so. -/
  | emit (tx : Nat) (event : Event) (refused : Bool)
  | failCommits (count : Nat)
  | entries
  | unpublished
  | unknown

/-- The bench. -/
structure Bench where
  outbox : Outbox := {}
  /-- Ids of rows that were made by events, whose time nobody chose. -/
  emitted : List Int := []

namespace Bench

/-- Rows as they are shown. -/
def shown (b : Bench) (rows : List OutboxEntry) : Reply :=
  .rows (rows.map fun row => (row, !b.emitted.contains row.id))

/-- Change the outbox by something that may not be possible. -/
def change (b : Bench) (result : Option (Reply × Outbox)) : Reply × Bench :=
  match result with
  | none => (.badStep, b)
  | some (reply, outbox) => (reply, { b with outbox })

/-- Write an event. -/
def emit (b : Bench) (tx : TransactionId) (event : Event) (refused : Bool) : Reply × Bench :=
  match b.outbox.emit tx epoch event with
  | none => (.badStep, b)
  | some (.error e, outbox) => (.failed (.outbox e), { b with outbox })
  | some (.ok id, outbox) =>
    if refused then (.failed (.outbox (.backend s!"refused {event.name}")), b)
    else (.number id, { outbox, emitted := id :: b.emitted })

/-- Take a step. -/
def step (b : Bench) : Step → Reply × Bench
  | .begin =>
    let (tx, outbox) := b.outbox.begin
    (.number tx, { b with outbox })
  | .insert tx entry => b.change do
    let (id, outbox) ← b.outbox.insert tx entry
    some (.number id, outbox)
  | .fetch tx limit => b.change do
    let (rows, outbox) ← b.outbox.fetch tx limit
    some (b.shown rows, outbox)
  | .mark tx ids => b.change do
    let outbox ← b.outbox.mark tx ids
    some (.ok, outbox)
  | .commit tx => b.change do
    let (result, outbox) ← b.outbox.commit tx
    some (.ofResult .commit result, outbox)
  | .rollback tx | .drop tx => b.change do
    let outbox ← b.outbox.rollback tx
    some (.ok, outbox)
  | .emit tx event refused => b.emit tx event refused
  | .failCommits count => (.ok, { b with outbox := b.outbox.failNextCommits count })
  | .entries => (b.shown b.outbox.rows, b)
  | .unpublished => (.number b.outbox.unpublishedCount, b)
  | .unknown => (.badStep, b)

end Bench

/-- What is reported after a step. -/
structure Report where
  reply : Reply
  /-- The committed rows: their ids, and whether they are published. -/
  rows : List (Int × Bool)
  unpublished : Nat

/-- Take steps one after another. -/
def run (steps : List Step) : List Report :=
  go {} steps
where
  go (b : Bench) : List Step → List Report
    | [] => []
    | step :: rest =>
      let (reply, b) := b.step step
      let report : Report := {
        reply
        rows := b.outbox.rows.map fun row => (row.id, row.published)
        unpublished := b.outbox.unpublishedCount }
      report :: go b rest

end Courier.Simulation.OutboxBench
