import Courier.Broker
import Courier.Outbox.Store
import Courier.Simulation.Tap
import Courier.Trace

/-!
# A simulated service

The state of a service that runs on one virtual clock: its connection, pools, tokens and outbox,
what it has noted, and its tasks. `World.react` answers one request of one task, or says that the
task has to wait, and then sees to it that the task is woken when it shall ask again. A task that is
asked to go on too early only waits again, so the order in which tasks go on is left to a scheduler.

Tasks do their work in turns. A turn is a program, which always ends; between two turns a task is
what its routine says.
-/

namespace Courier.Simulation

/-- A task, by the number of its making. -/
abbrev TaskId := Nat

/-- The token that stops runs and relays. -/
def runToken : TokenId := 0

/-- The token that stops all deliveries; a shutdown cancels it. -/
def deliveryToken : TokenId := 1

/-- A token that is cancelled from the start. -/
def cancelledToken : TokenId := 2

/-- A token that is never cancelled. -/
def idleToken : TokenId := 3

/-- The tokens that there are from the start. -/
def initialTokens : Tokens :=
  { tokens := [{}, {}, { cancelled := true }, {}] }

/-- A relay at work. -/
structure Relaying where
  config : RelayConfig
  cancel : TokenId
  /-- How a row is sent. -/
  send : OutboxEntry → Service.Action (Except String Unit)

/-- What a task is between two turns. -/
inductive Routine where
  | lane (run : Nat) (lane : Lane)
  | run (running : Group.Running)
  | relay (relaying : Relaying) (due : Nat)

/-- How a task ended. -/
inductive Ending where
  /-- A lane of a run. -/
  | lane (run : Nat) (result : Except ConsumeError Unit)
  | run (run : Nat) (result : Except ConsumeError Unit)
  | relay
  /-- A publisher has been closed. -/
  | closed

/-- A turn of a task. -/
abbrev Turn := Service.Action (Routine ⊕ Ending)

namespace Routine

/-- The first turn of a lane. -/
def startLane (number : Nat) (consumer : Consumer) (stops : List TokenId) : Turn := do
  match ← Service.consuming (Lane.start consumer stops) with
  | .inl started => pure (.inl (.lane number started))
  | .inr result => pure (.inr (.lane number result))

/-- The turn after a run has come so far. -/
def afterRun (number : Nat) : Group.Progress → Routine ⊕ Ending
  | .inl running => .inl (Routine.run running)
  | .inr result => .inr (Ending.run number result)

/-- The first turn of a run. -/
def startRun (group : Group) (connected : Bool) (number : Nat) : Turn := do
  let progress ← Service.consuming (group.start connected number runToken deliveryToken)
  pure (afterRun number progress)

/-- Do a part of a relay's work. -/
def relayed {α : Type} (relaying : Relaying) (p : Relay.Action α) : Service.Action α :=
  Service.relaying relaying.cancel relaying.send p

/-- A turn of a relay whose next tick is due then. -/
def relayTurn (relaying : Relaying) (due : Nat) : Turn := do
  match ← relayed relaying (Relay.turn relaying.config due) with
  | none => pure (.inr .relay)
  | some due => pure (.inl (.relay relaying due))

/-- The first turn of a relay that starts at a time. -/
def startRelay (relaying : Relaying) (now : Nat) : Turn := do
  relayed relaying (Relay.tell .startup)
  relayTurn relaying now

/-- Close a publisher. -/
def closePublisher (publisher : ChannelPublisher) : Turn := do
  let _ ← Service.session publisher.close
  pure (.inr .closed)

/-- The next turn. -/
def turn : Routine → Turn
  | .lane number reading => do
    match ← Service.consuming reading.turn with
    | .inl reading => pure (.inl (.lane number reading))
    | .inr result => pure (.inr (.lane number result))
  | .run running => do
    let progress ← Service.consuming running.turn
    pure (afterRun running.run progress)
  | .relay relaying due => relayTurn relaying due

end Routine

/-- A task. -/
structure Task where
  /-- What is left of its turn; nothing if it has ended, or if it is a caller from outside. -/
  turn : Option Turn
  /-- How it ends if it panics. -/
  panicked : Ending := .closed

/-- Someone to be woken at a time. -/
structure Alarm where
  task : TaskId
  due : Nat

/-- The lanes of a run. -/
structure LaneSet where
  /-- How many have not ended. -/
  running : Nat := 0
  /-- Results not yet looked at, the first one first. -/
  ended : List (Except ConsumeError Unit) := []
  /-- Who waits for the next one. -/
  joiner : Option TaskId := none

/-- What a relay asks of its storage. -/
inductive StorageCall where
  | begin
  | fetch
  | mark
  | commit
  | rollback
  deriving DecidableEq, Repr

/-- The name of a call. -/
def StorageCall.name : StorageCall → String
  | .begin => "begin"
  | .fetch => "fetch"
  | .mark => "mark"
  | .commit => "commit"
  | .rollback => "rollback"

/-- All calls. -/
def StorageCall.all : List StorageCall :=
  [.begin, .fetch, .mark, .commit, .rollback]

/-- A service and its surroundings. -/
structure World where
  tap : Tap := {}
  /-- The publisher pools, if there is a connection. -/
  pools : Option Pools := none
  tokens : Tokens := initialTokens
  outbox : Outbox := {}
  /-- Milliseconds since the start. -/
  clock : Nat := 0
  /-- Alarms that have not been answered, the first made first. -/
  alarms : List Alarm := []
  /-- Tasks that let the others go first. -/
  yielding : List TaskId := []
  /-- Tasks that have let the others go first. -/
  rested : List TaskId := []
  notes : List Note := []
  /-- Are the calls of the storage noted? -/
  storageNoted : Bool := false
  /-- Are the events of relay hooks noted? -/
  hooksNoted : Bool := true
  /-- The counters asked so far, one entry for each time. -/
  counted : List Nat := []
  /-- How often each call of the storage fails from now on. -/
  storageFaults : List (StorageCall × Nat) := []
  /-- How often each row is refused from now on. -/
  refusals : List (Int × Nat) := []
  /-- Which task listens to which stream. -/
  listeners : List (StreamId × TaskId) := []
  runs : List LaneSet := []
  tasks : List Task := []
  /-- Tasks that can go on, the next one first. -/
  ready : List TaskId := []
  /-- How tasks have ended, lanes and closed publishers apart. -/
  ended : List Ending := []

namespace World

/-! ## Waking -/

/-- Let a task go on when its turn comes. -/
def wake (w : World) (task : TaskId) : World :=
  if w.ready.contains task then w else { w with ready := w.ready ++ [task] }

def wakeAll (w : World) (tasks : List TaskId) : World :=
  tasks.foldl wake w

/-- Wake the tasks that wait for tokens and streams that were touched. -/
def passWakeUps (w : World) : World :=
  let streams := w.tap.broker.woken.filterMap fun stream => w.listeners.lookup stream
  let tasks := w.tokens.woken ++ streams
  { w with
    tokens := { w.tokens with woken := [] }
    tap := { w.tap with broker := { w.tap.broker with woken := [] } } }.wakeAll tasks

/-- Start a task. -/
def spawn (w : World) (turn : Turn) (panicked : Ending := .closed) : World :=
  let task : Task := { turn := some turn, panicked }
  { w with tasks := w.tasks ++ [task] }.wake w.tasks.length

/-- Make room for a caller from outside. -/
def enrol (w : World) : TaskId × World :=
  (w.tasks.length, { w with tasks := w.tasks ++ [{ turn := none }] })

/-- Wait for tokens. -/
def register (w : World) (tokens : List TokenId) (task : TaskId) : World :=
  { w with tokens := tokens.foldl (·.register · task) w.tokens }

/-- Wait for tokens no longer. -/
def unregister (w : World) (tokens : List TokenId) (task : TaskId) : World :=
  { w with tokens := tokens.foldl (·.unregister · task) w.tokens }

/-- Has one of the tokens been cancelled? -/
def anyCancelled (w : World) (tokens : List TokenId) : Bool :=
  tokens.any w.tokens.isCancelled

/-- Forget the alarms of a task. -/
def disarm (w : World) (task : TaskId) : World :=
  { w with alarms := w.alarms.filter (·.task != task) }

open Program (Reaction)

/-- A request that can always be answered. -/
def answered {α : Type} : α × World → Reaction α × World
  | (answer, w) => (.ready answer, w)

/-- The answer to one who waits for a time: the time that it is, once it has come. -/
def awaitTime (w : World) (task : TaskId) (due : Nat) : Reaction Nat × World :=
  if due ≤ w.clock then (.ready w.clock, w.disarm task)
  else if w.alarms.any (·.task == task) then (.blocked, w)
  else (.blocked, { w with alarms := w.alarms ++ [⟨task, due⟩] })

/-- The answer to one who sleeps: an alarm that is there says until when. -/
def sleep (w : World) (task : TaskId) (millis : Nat) : Reaction Unit × World :=
  let due := match w.alarms.find? (·.task == task) with
    | some alarm => alarm.due
    | none => w.clock + millis
  match w.awaitTime task due with
  | (.ready _, w) => (.ready (), w)
  | (.blocked, w) => (.blocked, w)
  | (.panicked, w) => (.panicked, w)

/-- The answer to one who lets the others go first. -/
def rest (w : World) (task : TaskId) : Reaction Unit × World :=
  if w.rested.contains task then (.ready (), { w with rested := w.rested.erase task })
  else if w.yielding.contains task then (.blocked, w)
  else (.blocked, { w with yielding := w.yielding ++ [task] })

/-! ## The connection and the pools -/

/-- Carry out a request to the connection. -/
def session (r : Transport.Request) (w : World) : Reaction (Requests.Answer r) × World :=
  let (reaction, tap) := w.tap.react r
  (reaction, { w with tap })

/-- Change the pool of a guarantee. -/
def setPool (w : World) (guarantee : Guarantee) (pool : Pool ChannelPublisher) : World :=
  { w with pools := w.pools.map (·.set pool guarantee) }

/-- Look for a publisher in a pool. -/
def acquire (w : World) (task : TaskId) (guarantee : Guarantee) (cancel : TokenId) :
    Reaction (Except PublishError ChannelPublisher) × World :=
  match w.pools with
  | none => (.ready (.error .standalone), w)
  | some pools =>
    let (attempt, pool, woken) := (pools.get guarantee).attempt
      (fun _ => ChannelPublisher.of guarantee) (w.tokens.isCancelled cancel) true task
    let w := (w.setPool guarantee pool).wakeAll woken
    match attempt with
    | .lent publisher => (.ready (.ok publisher), w.unregister [cancel] task)
    | .refused e => (.ready (.error e), w.unregister [cancel] task)
    | .waits => (.blocked, w.register [cancel] task)

/-- Carry out a request of a publish. -/
def pooling (task : TaskId) : (r : Pooling.Request) → World → Reaction (Requests.Answer r) × World
  | .session r, w => w.session r
  | .acquire guarantee cancel, w => w.acquire task guarantee cancel
  | .putBack guarantee publisher, w =>
    match w.pools with
    | none => (.ready none, w)
    | some pools =>
      let (late, pool, woken) := (pools.get guarantee).putBack publisher
      (.ready late, (w.setPool guarantee pool).wakeAll woken)
  | .drain guarantee, w =>
    match w.pools with
    | none => (.ready [], w)
    | some pools =>
      let (idle, pool, woken) := (pools.get guarantee).drain
      (.ready idle, (w.setPool guarantee pool).wakeAll woken)
  | .shrink guarantee, w =>
    match w.pools with
    | none => (.ready (), w)
    | some pools => (.ready (), w.setPool guarantee (pools.get guarantee).shrink)
  | .detach publisher, w => (.ready (), w.spawn (Routine.closePublisher publisher))

/-- Stop all deliveries and close the pools. Nothing in this waits. -/
def shutdown (task : TaskId) (w : World) : World :=
  let w := { w with tokens := w.tokens.cancel deliveryToken }.passWakeUps
  (Pooling.closeAll.advance (pooling task) w).2

/-! ## Consumers -/

/-- Carry out a request of a handler. -/
def handler (task : TaskId) : (r : Handler.Request) → World → Reaction (Requests.Answer r) × World
  | .sleep millis, w => w.sleep task millis
  | .now, w => (.ready w.clock, w)
  | .count counter, w =>
    (.ready (w.counted.count counter), { w with counted := counter :: w.counted })
  | .note note, w => (.ready (), { w with notes := w.notes ++ [note] })
  | .cancelRuns, w => (.ready (), { w with tokens := w.tokens.cancel runToken })
  | .shutdown, w => (.ready (), w.shutdown task)
  | .send publishing, w =>
    let (result, tap) := w.tap.send publishing
    (.ready result, { w with tap })

/-- Look for the word to stop, and then for a message. -/
def receive (w : World) (task : TaskId) (stream : StreamId) (stops : List TokenId) :
    Reaction Consuming.Received × World :=
  let found (received : Consuming.Received) (w : World) :=
    (Reaction.ready received, w.unregister stops task)
  if w.anyCancelled stops then found .stopped w
  else
    let (next, tap) := w.tap.next stream
    let w := { w with tap }
    match next with
    | .waiting => (.blocked,
        { w.register stops task with
          listeners := (stream, task) :: w.listeners.filter (·.1 != stream) })
    | .ended => found .ended w
    | .delivered delivery message => found (.delivered delivery message) w
    | .failed e => found (.failed e) w

/-- The next result of a run's lanes. -/
def join (w : World) (task : TaskId) (run : Nat) :
    Reaction (Option (Except ConsumeError Unit)) × World :=
  match w.runs[run]? with
  | none => (.ready none, w)
  | some lanes =>
    match lanes.ended with
    | result :: rest =>
      (.ready (some result), { w with runs := w.runs.set run { lanes with ended := rest } })
    | [] =>
      if lanes.running = 0 then (.ready none, w)
      else (.blocked, { w with runs := w.runs.set run { lanes with joiner := some task } })

/-- Start a lane of a run. -/
def spawnLane (w : World) (run : Nat) (consumer : Consumer) (stops : List TokenId) : World :=
  { w with runs := w.runs.modify run fun lanes =>
      { lanes with running := lanes.running + 1 } }.spawn
    (Routine.startLane run consumer stops) (.lane run (.error (.lane "the lane panicked")))

/-- Carry out a request of a running consumer. -/
def consuming (task : TaskId) :
    (r : Consuming.Request) → World → Reaction (Requests.Answer r) × World
  | .session r, w => w.session r
  | .handler r, w => w.handler task r
  | .receive stream stops, w => w.receive task stream stops
  | .awaitCancelled tokens, w =>
    if w.anyCancelled tokens then (.ready (), w.unregister tokens task)
    else (.blocked, w.register tokens task)
  | .childToken parent, w =>
    let (token, tokens) := w.tokens.addChild parent
    (.ready token, { w with tokens })
  | .cancelToken token, w => (.ready (), { w with tokens := w.tokens.cancel token })
  | .dropToken token, w => (.ready (), { w with tokens := w.tokens.dropChild token })
  | .spawnLane run consumer stops, w => (.ready (), w.spawnLane run consumer stops)
  | .join run, w => w.join task run

/-! ## Relays -/

/-- Does this call of the storage fail? Each one that does counts down. -/
def storageFails (w : World) (call : StorageCall) : Bool × World :=
  match w.storageFaults.lookup call with
  | none => (false, w)
  | some 0 => (false, w)
  | some (n + 1) => (true, { w with
      storageFaults := (call, n) :: w.storageFaults.filter (·.1 != call) })

/-- Note a call of the storage, if that is wanted. -/
def noteStorage (w : World) (r : Relay.Request) : World :=
  if w.storageNoted then { w with notes := w.notes ++ [.storage r] } else w

/-- The transaction is let go and rolls back. -/
def dropTransaction (w : World) (tx : TransactionId) : World :=
  match w.outbox.rollback tx with
  | some outbox => { w with outbox }
  | none => w

/-- A call of the storage: noted, then failed or carried out. A transaction that the call would
have ended is let go if it fails. -/
def storage {α : Type} (w : World) (r : Relay.Request) (call : StorageCall)
    (ends : Option TransactionId) (carryOut : Outbox → Option (Except String α × Outbox)) :
    Except String α × World :=
  match (w.noteStorage r).storageFails call with
  | (true, w) =>
    let w := match ends with
      | some tx => w.dropTransaction tx
      | none => w
    (.error s!"injected {call.name}", w)
  | (false, w) =>
    match carryOut w.outbox with
    | some (result, outbox) => (result, { w with outbox })
    | none => (.error "the transaction has ended", w)

/-- Is this row refused? Each refusal counts down. -/
def refuses (w : World) (id : Int) : Bool × World :=
  match w.refusals.lookup id with
  | none => (false, w)
  | some 0 => (false, w)
  | some (n + 1) => (true, { w with refusals := (id, n) :: w.refusals.filter (·.1 != id) })

/-- Send a row to a publisher that takes every row which it is not told to refuse. -/
def sendRow (w : World) (entry : OutboxEntry) (cancel : TokenId) :
    Except String Unit × World :=
  let w := { w with notes := w.notes ++ [Note.forwarded entry (w.tokens.isCancelled cancel)] }
  match w.refuses entry.id with
  | (true, w) => (.error s!"row {entry.id} refused", w)
  | (false, w) => (.ok (), w)

/-- Carry out a request of a relay. -/
def relay (task : TaskId) (cancel : TokenId) :
    (r : Relay.Request) → World → Reaction (Requests.Answer r) × World
  | .begin, w => answered <| w.storage .begin .begin none fun o =>
      let (tx, o) := o.begin
      some (.ok tx, o)
  | .fetch tx limit, w => answered <| w.storage (.fetch tx limit) .fetch none fun o => do
      let (rows, o) ← o.fetch tx limit
      some (.ok rows, o)
  | .send entry, w => answered (w.sendRow entry cancel)
  | .mark tx ids, w => answered <| w.storage (.mark tx ids) .mark none fun o => do
      let o ← o.mark tx ids
      some (.ok (), o)
  | .commit tx, w => answered <| w.storage (.commit tx) .commit (some tx) fun o => do
      let (result, o) ← o.commit tx
      some (result.mapError CommitError.message, o)
  | .rollback tx, w => answered <| w.storage (.rollback tx) .rollback (some tx) fun o => do
      let o ← o.rollback tx
      some (.ok (), o)
  | .hook event, w =>
    (.ready (), if w.hooksNoted then { w with notes := w.notes ++ [.hook event w.clock] } else w)
  | .tick due, w =>
    if w.tokens.isCancelled cancel then (.ready none, (w.unregister [cancel] task).disarm task)
    else
      match w.awaitTime task due with
      | (.ready now, w) => (.ready (some now), w.unregister [cancel] task)
      | (.blocked, w) => (.blocked, w.register [cancel] task)
      | (.panicked, w) => (.panicked, w)

/-! ## All requests -/

/-- Carry out a request of a task, and leave its wake-ups to be passed on. -/
def carryOut (task : TaskId) :
    (r : Service.Request) → World → Reaction (Requests.Answer r) × World
  | .pooling r, w => w.pooling task r
  | .consuming r, w => w.consuming task r
  | .relay r cancel, w => w.relay task cancel r
  | .yield, w => w.rest task

/-- Answer a request of a task, if there is an answer, and wake those whom that concerns. -/
def react (task : TaskId) (r : Service.Request) (w : World) :
    Reaction (Requests.Answer r) × World :=
  let (reaction, w) := w.carryOut task r
  (reaction, w.passWakeUps)

end World

end Courier.Simulation
