import Courier.Simulation.Reply
import Courier.Simulation.Scheduler

/-!
# The relay bench

One relay on an in-memory outbox, with a publisher that takes rows after a delay and refuses those
that it was told to. Calls of the storage, rows that are sent and events of the hook are noted.
-/

namespace Courier.Simulation.RelayBench

/-- A step that takes no time. -/
inductive Event where
  /-- Insert rows in one transaction. -/
  | insert (rows : List NewEntry)
  /-- Let rows be refused so often. -/
  | refuse (rows : List (Int × Nat))
  /-- Let the next calls of the storage fail. -/
  | fail (call : Option StorageCall) (count : Nat)
  | failCommits (count : Nat)
  /-- Have a foreign transaction fetch rows and keep them locked. -/
  | hold (limit : Nat)
  /-- End all foreign transactions. -/
  | unhold
  | cancel
  | unknown

/-- A step. -/
inductive Step where
  | event (event : Event)
  | poll (cancelled : Bool)
  /-- Two polls at the same time. -/
  | pollBoth
  /-- Run the relay; each event takes place so many milliseconds after the start. -/
  | run (events : List (Nat × Event))

/-- How the bench is set up. -/
structure Setup where
  config : RelayConfig := {}
  /-- How long the publisher takes for a row, in milliseconds. -/
  delay : Nat := 0
  /-- Does the publisher let the others go first? -/
  yields : Bool := false
  /-- Are the events of the hook noted? -/
  hooksNoted : Bool := true

/-- The bench. -/
structure Bench where
  setup : Setup
  world : World
  /-- Foreign transactions. -/
  held : List TransactionId := []

/-- The relay of a setup, stopped by a token. -/
def Setup.relaying (setup : Setup) (cancel : TokenId) : Relaying where
  config := setup.config
  cancel
  send entry := do
    Service.handling (Handling.sleep setup.delay)
    if setup.yields then Program.request Service.Request.yield
    Program.request (Service.Request.relay (.send entry) cancel)

namespace Bench

/-- Change the outbox. -/
def withOutbox (b : Bench) (outbox : Outbox) : Bench :=
  { b with world := { b.world with outbox } }

/-- Insert rows in one transaction. -/
def insert (b : Bench) (rows : List NewEntry) : Reply × Bench :=
  let (tx, o) := b.world.outbox.begin
  let o := rows.foldl (fun o row => match o.insert tx row with
    | some (_, o) => o
    | none => o) o
  match o.commit tx with
  | some (.ok (), o) => (.ok, b.withOutbox o)
  | some (.error _, o) => (.word "commit failed", b.withOutbox o)
  | none => (.badStep, b)

/-- Have a foreign transaction fetch rows. -/
def hold (b : Bench) (limit : Nat) : Reply × Bench :=
  let (tx, o) := b.world.outbox.begin
  match o.fetch tx limit with
  | some (rows, o) =>
    (.several (rows.map fun row => .number row.id),
      { b.withOutbox o with held := b.held ++ [tx] })
  | none => (.badStep, b)

/-- Take a step that takes no time. -/
def event (b : Bench) : Event → Reply × Bench
  | .insert rows => b.insert rows
  | .refuse rows =>
    let refusals := rows.reverse ++ b.world.refusals.filter fun (id, _) => !rows.any (·.1 == id)
    (.ok, { b with world := { b.world with refusals } })
  | .fail none _ => (.ok, b)
  | .fail (some call) count =>
    let storageFaults := (call, count) :: b.world.storageFaults.filter (·.1 != call)
    (.ok, { b with world := { b.world with storageFaults } })
  | .failCommits count => (.ok, b.withOutbox (b.world.outbox.failNextCommits count))
  | .hold limit => b.hold limit
  | .unhold =>
    (.ok, { b with world := b.held.foldl World.dropTransaction b.world, held := [] })
  | .cancel =>
    let tokens := b.world.tokens.cancel runToken
    (.ok, { b with world := { b.world with tokens }.passWakeUps })
  | .unknown => (.badStep, b)

/-- A poll with a token. -/
def pollWith (b : Bench) (cancel : TokenId) : Service.Action (Except RelayError Nat) :=
  Routine.relayed (b.setup.relaying cancel) (Relay.poll b.setup.config.batchSize)

/-- The reply of a poll. -/
def polled : Except RelayError Nat → Reply
  | .ok count => .number count
  | .error e => .failed (.relay e)

/-- Take events at their times. -/
def takePlace (start : Nat) (b : Bench) : List (Nat × Event) → List Reply × Bench
  | [] => ([], b)
  | (time, event) :: rest =>
    let b := { b with world := b.world.waitUntil (start + time) }
    let (reply, b) := b.event event
    let (replies, b) := takePlace start b rest
    (reply :: replies, b)

/-- Run the relay until it is cancelled, at the latest after the last event. -/
def run (b : Bench) (events : List (Nat × Event)) : Reply × Bench :=
  let start := b.world.clock
  let turn := Routine.startRelay (b.setup.relaying runToken) start
  let b := { b with world := { b.world with ended := [] }.spawn turn }
  let (replies, b) := takePlace start b events
  let (_, b) := b.event .cancel
  let world := b.world.waitWhile (·.ended.isEmpty) patience
  (.ended replies world.clock, { b with world })

/-- Take a step. -/
def step (b : Bench) : Step → Reply × Bench
  | .event event => b.event event
  | .poll cancelled =>
    let cancel := if cancelled then cancelledToken else idleToken
    let (result, world) := b.world.call (b.pollWith cancel)
    (((result.map polled).getD (.failed .panicked)), { b with world })
  | .pollBoth =>
    let (results, world) := b.world.callAll [b.pollWith idleToken, b.pollWith idleToken]
    (.several (results.map polled), { b with world })
  | .run events => b.run events

end Bench

/-- What is reported after a step. -/
structure Report where
  reply : Reply
  notes : List Note
  /-- Ids of the rows that are published. -/
  published : List Int
  unpublished : Nat

/-- Take steps one after another. -/
def run (setup : Setup) (steps : List Step) : List Report :=
  go { setup, world := { storageNoted := true, hooksNoted := setup.hooksNoted } } steps
where
  go (b : Bench) : List Step → List Report
    | [] => []
    | step :: rest =>
      let (reply, b) := b.step step
      let report : Report := {
        reply
        notes := b.world.notes
        published := (b.world.outbox.rows.filter (·.published)).map (·.id)
        unpublished := b.world.outbox.unpublishedCount }
      report :: go { b with world := { b.world with notes := [] } } rest

end Courier.Simulation.RelayBench
