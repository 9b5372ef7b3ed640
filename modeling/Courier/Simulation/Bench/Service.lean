import Courier.Outbox.Forwarder
import Courier.Simulation.Probe
import Courier.Simulation.Scheduler
import Courier.Simulation.Script

/-!
# The service bench

A broker, or a consumer group alone, with scripted handlers, on a tapped connection or on none. A
broker also has an outbox, and a relay that forwards its rows to the broker. After each step the
service settles.
-/

namespace Courier.Simulation.ServiceBench

/-- A declaration made on the broker behind the tap. -/
inductive Declaration where
  | exchange (name : String) (kind : ExchangeKind) (durable : Bool)
  | queue (declaration : QueueDeclaration)
  | bind (queue exchange routingKey : String) (arguments : Headers)
  | unknown

/-- A step. -/
inductive Step where
  /-- Start a run. -/
  | start
  | cancel
  | shutdown
  | wait (millis : Nat)
  /-- Send a message straight to the broker behind the tap. -/
  | send (publishing : Publishing)
  | topology (declarations : List Declaration)
  | probe (probe : Probe)
  /-- How many consumers are there? -/
  | size
  | isStandalone
  | declareExchange (name : String) (kind : ExchangeKind)
  | publish (publishing : Publishing) (guarantee : Guarantee) (cancelled : Bool)
  /-- Publish a payload, given as JSON. -/
  | publishJson (sample : Sample) (payload : Json) (destination : Destination)
      (guarantee : Guarantee) (cancelled : Bool)
  /-- Write events to the outbox in one transaction. One that is no event ends the step. -/
  | emit (events : List (Option Event)) (rollback : Bool)
  | failCommits (count : Nat)
  | entries
  | relayPoll (cancelled : Bool)
  | relayStart
  | unknown

/-- How the bench is set up. -/
structure Setup where
  /-- Is there a broker, or a consumer group alone? -/
  isBroker : Bool
  standalone : Bool := false
  /-- The group's validator. -/
  failFast : Bool := false
  pool : PoolConfig := {}
  registrations : List Registration := []
  relay : RelayConfig := {}
  forwarder : Forwarder := {}

/-- The bench. -/
structure Bench where
  setup : Setup
  broker : Broker
  world : World
  /-- Queues that are reported. -/
  queues : List String := []
  /-- How many settlements have been reported. -/
  reported : Nat := 0

/-- The bench of a setup; there is none if a registration cannot be carried out. -/
def Setup.bench? (setup : Setup) : Option Bench := do
  let broker : Broker := {
    connected := !setup.standalone
    group := { validator := ⟨setup.failFast⟩ } }
  let (broker, _) ← Registration.extend setup.isBroker broker 0 0 setup.registrations
  let pools := if setup.isBroker && !setup.standalone then some (Pools.new setup.pool) else none
  let queues := broker.group.consumers.flatMap fun consumer =>
    [consumer.config.queue, consumer.config.deadLetterQueue]
  some { setup, broker, world := { pools }, queues := queues.eraseDups }

/-- The token of a call. -/
def tokenOf (cancelled : Bool) : TokenId :=
  if cancelled then cancelledToken else idleToken

namespace Bench

/-- Change the connection. -/
def withTap (b : Bench) (tap : Tap) : Bench :=
  { b with world := { b.world with tap } }

/-- Carry out a call from outside and reply to its result. -/
def call {α : Type} (b : Bench) (action : Service.Action α) (reply : α → Reply) :
    Reply × Bench :=
  let (result, world) := b.world.call action
  ((result.map reply).getD (.failed .panicked), { b with world })

/-- Make declarations on a channel. -/
def declareAll (channel : ChannelId) (m : Memory) : List Declaration → List Reply × Memory
  | [] => ([], m)
  | declaration :: rest =>
    let (reply, m) := match declaration with
      | .exchange name kind durable =>
        let (result, m) := Memory.answer (.declareExchange channel name kind durable) m
        (Reply.ofTransport result, m)
      | .queue declaration =>
        let (result, m) := Memory.answer (.declareQueue channel declaration) m
        (.ofTransport result, m)
      | .bind queue exchange routingKey arguments =>
        let (result, m) := Memory.answer (.bindQueue channel queue exchange routingKey arguments) m
        (.ofTransport result, m)
      | .unknown => (.badStep, m)
    let (replies, m) := declareAll channel m rest
    (reply :: replies, m)

/-- Make declarations on a channel of their own. -/
def topology (b : Bench) (declarations : List Declaration) : Reply × Bench :=
  let (channel, m) := b.world.tap.broker.addChannel
  let (replies, m) := declareAll channel m declarations
  (.several replies, b.withTap { b.world.tap with broker := m.release channel })

/-- Write events in a transaction. There is no answer if one of them is no event. -/
def emitAll (tx : TransactionId) (o : Outbox) : List (Option Event) → Option (List Reply) × Outbox
  | [] => (some [], o)
  | none :: _ => (none, o)
  | some event :: rest =>
    let (reply, o) := match o.emit tx epoch event with
      | some (.ok id, o) => (.number id, o)
      | some (.error e, o) => (.failed (.outbox e), o)
      | none => (.badStep, o)
    let (replies, o) := emitAll tx o rest
    (replies.map (reply :: ·), o)

/-- Write events to the outbox, then commit, or roll back. -/
def emit (b : Bench) (events : List (Option Event)) (rollback : Bool) : Reply × Bench :=
  let (tx, o) := b.world.outbox.begin
  let (replies, o) := emitAll tx o events
  let ended (ending : Option (Reply × Outbox)) : Reply × Bench :=
    match ending with
    | none => (.badStep, b)
    | some (reply, outbox) => (reply, { b with world := { b.world with outbox } })
  ended <| match replies with
    | none => (o.rollback tx).map fun o => (.badStep, o)
    | some replies =>
      if rollback then
        (o.rollback tx).map fun o => (.several [.several replies, .word "rolled back"], o)
      else
        (o.commit tx).map fun (result, o) =>
          (.several [.several replies, .ofResult .commit result], o)

/-- The relay of the service, stopped by a token. -/
def relaying (b : Bench) (cancel : TokenId) : Relaying where
  config := b.setup.relay
  cancel
  send entry := Service.pooling (b.setup.forwarder.send cancel entry)

/-- Take a step that brokers and groups have in common. -/
def common (b : Bench) : Step → Reply × Bench
  | .start =>
    let run := b.world.runs.length
    let turn := Routine.startRun b.broker.group b.broker.connected run
    (.number run,
      { b with world := { b.world with runs := b.world.runs ++ [({} : LaneSet)] }.spawn turn })
  | .cancel =>
    let tokens := b.world.tokens.cancel runToken
    (.ok, { b with world := { b.world with tokens }.passWakeUps })
  | .shutdown => b.call (Broker.shutdown deliveryToken) fun _ => .ok
  | .wait millis =>
    let world := b.world.waitUntil (b.world.clock + millis)
    (.number world.clock, { b with world })
  | .send publishing =>
    let (result, tap) := b.world.tap.send publishing
    (.ofTransport result, b.withTap tap)
  | .topology declarations => b.topology declarations
  | .probe probe =>
    let (reply, tap) := b.world.tap.probe probe
    (reply, b.withTap tap)
  | .emit events rollback => b.emit events rollback
  | .failCommits count =>
    let outbox := b.world.outbox.failNextCommits count
    (.ok, { b with world := { b.world with outbox } })
  | .entries => (.rows (b.world.outbox.rows.map (·, false)), b)
  | _ => (.badStep, b)

/-- Take a step of a broker. -/
def brokerStep (b : Bench) : Step → Reply × Bench
  | .isStandalone => (.flag b.broker.isStandalone, b)
  | .declareExchange name kind =>
    b.call (Service.session (b.broker.declareExchange name kind)) Reply.ofTransport
  | .publish publishing guarantee cancelled =>
    b.call (Service.pooling (b.broker.publish (tokenOf cancelled) publishing.destination
      publishing.body guarantee)) Reply.ofPublish
  | .publishJson sample payload destination guarantee cancelled =>
    match sample.ofJson? payload with
    | none => (.badStep, b)
    | some value => b.call (Service.pooling (b.broker.publishJson (tokenOf cancelled) destination
        value guarantee)) Reply.ofPublish
  | .relayPoll cancelled =>
    let relaying := b.relaying (tokenOf cancelled)
    b.call (Routine.relayed relaying (Relay.poll b.setup.relay.batchSize)) fun
      | .ok count => .number count
      | .error e => .failed (.relay e)
  | .relayStart =>
    let turn := Routine.startRelay (b.relaying runToken) b.world.clock
    (.ok, { b with world := b.world.spawn turn })
  | .size => (.badStep, b)
  | step => b.common step

/-- Take a step of a consumer group. -/
def groupStep (b : Bench) : Step → Reply × Bench
  | .size => (.several [.number b.broker.group.size, .flag b.broker.group.isEmpty], b)
  | step => b.common step

/-- Take a step and let the service settle. -/
def step (b : Bench) (step : Step) : Reply × Bench :=
  let (reply, b) := if b.setup.isBroker then b.brokerStep step else b.groupStep step
  (reply, { b with world := b.world.passWakeUps.settled })

end Bench

/-- What is reported after a step. -/
structure Report where
  reply : Reply
  /-- Channels that are open. -/
  openChannels : Nat
  queues : List (String × Nat)
  notes : List Note
  calls : List Transport.Request
  /-- New settlements. -/
  acknowledgements : List Memory.AckRecord
  /-- Runs that ended, by their numbers. -/
  runs : List (Nat × Except ConsumeError Unit)
  /-- Did the relays end? They are stopped by one token, so they end together. -/
  relaysEnded : Bool

/-- The runs among ended tasks, in the order of their numbers. -/
def endedRuns (endings : List Ending) : List (Nat × Except ConsumeError Unit) :=
  let runs := endings.filterMap fun
    | .run number result => some (number, result)
    | _ => none
  runs.mergeSort fun a b => a.1 ≤ b.1

/-- Is a relay among ended tasks? -/
def anyRelay (endings : List Ending) : Bool :=
  endings.any fun
    | .relay => true
    | _ => false

/-- The report after a step. -/
def Bench.report (b : Bench) (reply : Reply) : Report :=
  let tap := b.world.tap
  { reply
    openChannels := tap.broker.openChannels
    queues := tap.lengths b.queues
    notes := b.world.notes
    calls := tap.calls
    acknowledgements := tap.broker.acknowledgements.drop b.reported
    runs := endedRuns b.world.ended
    relaysEnded := anyRelay b.world.ended }

/-- The bench after its report. -/
def Bench.cleared (b : Bench) : Bench :=
  let tap := b.world.tap
  { b with
    world := { b.world with notes := [], ended := [], tap := { tap with calls := [] } }
    reported := tap.broker.acknowledgements.length }

/-- Take steps one after another. Each may name a queue, which is reported from then on. -/
def run (setup : Setup) (steps : List (Option String × Step)) : Option (List Report) := do
  let b ← setup.bench?
  some (go b steps)
where
  go (b : Bench) : List (Option String × Step) → List Report
    | [] => []
    | (queue, step) :: rest =>
      let b := { b with queues := b.queues ++ queue.toList.filter (!b.queues.contains ·) }
      let (reply, b) := b.step step
      b.report reply :: go b.cleared rest

end Courier.Simulation.ServiceBench
