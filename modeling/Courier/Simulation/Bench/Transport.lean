import Courier.Simulation.Probe
import Courier.Simulation.Scheduler

/-!
# The transport bench

One in-memory broker that is used one step at a time: directly, through single publishers, and
through managed pools. Channels, streams, deliveries, publishers and managers are named by handles
that count them in the order of their making; a handle that was given up is no handle any more.
Only publishers and managers use the tapped connection.
-/

namespace Courier.Simulation.TransportBench

/-- A step. The numbers are handles. -/
inductive Step where
  | openChannel
  | dropChannel (channel : Nat)
  | close (channel : Nat)
  | confirmSelect (channel : Nat)
  | qos (channel : Nat) (prefetchCount : UInt16)
  | declareExchange (channel : Nat) (name : String) (kind : ExchangeKind) (durable : Bool)
  | declareQueue (channel : Nat) (declaration : QueueDeclaration)
  | bindQueue (channel : Nat) (queue exchange routingKey : String) (arguments : Headers)
  | publish (channel : Nat) (publishing : Publishing) (options : PublishOptions)
  | consume (channel : Nat) (queue : String) (exclusive : Bool)
  | next (stream : Nat)
  | dropStream (stream : Nat)
  | ack (delivery : Nat)
  | nack (delivery : Nat) (requeue : Bool)
  | probe (probe : Probe)
  | makePublisher (guarantee : Guarantee)
  | publisherPublish (publisher : Nat) (publishing : Publishing)
  | publisherClose (publisher : Nat)
  | publisherDrop (publisher : Nat)
  | makeManager (standalone : Bool) (config : PoolConfig)
  | managerPublish (manager : Nat) (publishing : Publishing) (guarantee : Guarantee)
      (cancelled : Bool)
  | managerSize (manager : Nat) (guarantee : Guarantee)
  | managerClose (manager : Nat)
  | unknown

/-- A pool manager; without a connection it has no pools. -/
structure Manager where
  pools : Option Pools

/-- The bench. -/
structure Bench where
  world : World := {}
  channels : List (Option ChannelId) := []
  streams : List (Option StreamId) := []
  deliveries : List DeliveryId := []
  publishers : List (Option ChannelPublisher) := []
  managers : List Manager := []

namespace Bench

def tap (b : Bench) : Tap :=
  b.world.tap

/-- Change the connection. -/
def withTap (b : Bench) (tap : Tap) : Bench :=
  { b with world := { b.world with tap } }

/-- Change the broker. -/
def withBroker (b : Bench) (broker : Memory) : Bench :=
  b.withTap { b.tap with broker }

/-- Ask the broker itself. -/
def direct (b : Bench) (r : Transport.Request) : Requests.Answer r × Bench :=
  let (answer, broker) := Memory.answer r b.tap.broker
  (answer, b.withBroker broker)

/-- Do something with a channel that there is. -/
def onChannel (b : Bench) (handle : Nat) (step : ChannelId → Reply × Bench) : Reply × Bench :=
  match b.channels[handle]?.join with
  | some channel => step channel
  | none => (.badStep, b)

/-- Reply to a request that answers no value. -/
def replyUnit : Except TransportError Unit × Bench → Reply × Bench
  | (result, b) => (.ofTransport result, b)

/-- Ask a stream. -/
def next (b : Bench) (stream : StreamId) : Reply × Bench :=
  let (next, broker) := b.tap.broker.next stream
  let b := b.withBroker broker
  match next with
  | .waiting => (.word "waiting", b)
  | .ended => (.word "end", b)
  | .failed e => (.failed (.transport e), b)
  | .delivered delivery message =>
    (.delivered b.deliveries.length message, { b with deliveries := b.deliveries ++ [delivery] })

/-- Do something with a publisher that there is. -/
def onPublisher {α : Type} (b : Bench) (handle : Nat)
    (action : ChannelPublisher → Transport.Session (α × Option ChannelPublisher))
    (reply : α → Reply) : Reply × Bench :=
  match b.publishers[handle]?.join with
  | none => (.badStep, b)
  | some publisher =>
    match b.world.call (Service.session (action publisher)) with
    | (none, world) => (.failed .panicked, { b with world })
    | (some (result, publisher), world) =>
      (reply result, { b with world, publishers := b.publishers.set handle publisher })

/-- Do something with a manager that there is, its pools being those of the world meanwhile. -/
def onManager {α : Type} (b : Bench) (handle : Nat) (action : Service.Action α)
    (reply : α → Reply) : Reply × Bench :=
  match b.managers[handle]? with
  | none => (.badStep, b)
  | some manager =>
    let (result, world) := { b.world with pools := manager.pools }.call action
    let world := world.settled
    let b := { b with world, managers := b.managers.set handle ⟨world.pools⟩ }
    match result with
    | some result => (reply result, b)
    | none => (.failed .panicked, b)

/-- The size of a pool of a manager. -/
def managerSize (b : Bench) (handle : Nat) (guarantee : Guarantee) : Reply :=
  match b.managers[handle]? with
  | none => .badStep
  | some ⟨none⟩ => .failed (.publish .standalone)
  | some ⟨some pools⟩ => .number (pools.get guarantee).size

/-- Take a step. -/
def step (b : Bench) : Step → Reply × Bench
  | .openChannel =>
    let (channel, broker) := b.tap.broker.addChannel
    (.number b.channels.length,
      { b.withBroker broker with channels := b.channels ++ [some channel] })
  | .dropChannel handle => b.onChannel handle fun channel =>
    let ((), b) := b.direct (.dropChannel channel)
    (.ok, { b with channels := b.channels.set handle none })
  | .close handle => b.onChannel handle fun channel => replyUnit (b.direct (.close channel))
  | .confirmSelect handle => b.onChannel handle fun channel =>
    replyUnit (b.direct (.confirmSelect channel))
  | .qos handle count => b.onChannel handle fun channel => replyUnit (b.direct (.qos channel count))
  | .declareExchange handle name kind durable => b.onChannel handle fun channel =>
    replyUnit (b.direct (.declareExchange channel name kind durable))
  | .declareQueue handle declaration => b.onChannel handle fun channel =>
    replyUnit (b.direct (.declareQueue channel declaration))
  | .bindQueue handle queue exchange routingKey arguments => b.onChannel handle fun channel =>
    replyUnit (b.direct (.bindQueue channel queue exchange routingKey arguments))
  | .publish handle publishing options => b.onChannel handle fun channel =>
    replyUnit (b.direct (.publish channel publishing options))
  | .consume handle queue exclusive => b.onChannel handle fun channel =>
    match b.direct (.consume channel queue exclusive) with
    | (.error e, b) => (.failed (.transport e), b)
    | (.ok stream, b) =>
      (.number b.streams.length, { b with streams := b.streams ++ [some stream] })
  | .next handle =>
    match b.streams[handle]?.join with
    | some stream => b.next stream
    | none => (.badStep, b)
  | .dropStream handle =>
    match b.streams[handle]?.join with
    | some stream =>
      let ((), b) := b.direct (.dropStream stream)
      (.ok, { b with streams := b.streams.set handle none })
    | none => (.badStep, b)
  | .ack handle =>
    match b.deliveries[handle]? with
    | some delivery => replyUnit (b.direct (.ack delivery))
    | none => (.badStep, b)
  | .nack handle requeue =>
    match b.deliveries[handle]? with
    | some delivery => replyUnit (b.direct (.nack delivery requeue))
    | none => (.badStep, b)
  | .probe probe =>
    let (reply, tap) := b.tap.probe probe
    (reply, b.withTap tap)
  | .makePublisher guarantee =>
    (.number b.publishers.length,
      { b with publishers := b.publishers ++ [some (.of guarantee)] })
  | .publisherPublish handle publishing => b.onPublisher handle (fun publisher => do
      let (result, publisher) ← publisher.send publishing
      pure (result, some publisher)) Reply.ofTransport
  | .publisherClose handle => b.onPublisher handle (fun publisher => do
      let publisher ← publisher.close
      pure ((), some publisher)) fun _ => .ok
  | .publisherDrop handle => b.onPublisher handle (fun publisher => do
      publisher.drop
      pure ((), none)) fun _ => .ok
  | .makeManager standalone config =>
    let pools := if standalone then none else some (Pools.new config)
    (.number b.managers.length, { b with managers := b.managers ++ [⟨pools⟩] })
  | .managerPublish handle publishing guarantee cancelled =>
    let cancel := if cancelled then cancelledToken else idleToken
    b.onManager handle (Service.pooling (Pooling.publish guarantee cancel publishing))
      Reply.ofPublish
  | .managerSize handle guarantee => (b.managerSize handle guarantee, b)
  | .managerClose handle =>
    b.onManager handle (Service.pooling Pooling.closeAll) fun _ => .ok
  | .unknown => (.badStep, b)

end Bench

/-- What is reported after a step. -/
structure Report where
  reply : Reply
  /-- Channels that are open. -/
  openChannels : Nat
  /-- The ready messages of the queues named so far. -/
  queues : List (String × Nat)
  /-- Calls of the tapped connection. -/
  calls : List Transport.Request

/-- Take steps one after another. Each may name a queue, which is reported from then on. -/
def run (steps : List (Option String × Step)) : List Report :=
  go {} [] steps
where
  go (b : Bench) (queues : List String) : List (Option String × Step) → List Report
    | [] => []
    | (queue, step) :: rest =>
      let queues := queues ++ (queue.toList.filter fun q => !queues.contains q)
      let (reply, b) := b.step step
      let report : Report := {
        reply
        openChannels := b.tap.broker.openChannels
        queues := b.tap.lengths queues
        calls := b.tap.calls }
      report :: go (b.withTap { b.tap with calls := [] }) queues rest

/-- Does a message reach a queue that is bound to an exchange of a kind? All of them are made
for this. -/
def reaches (kind : ExchangeKind) (routingKey : String) (arguments : Headers)
    (destination : Destination) : Bool :=
  let exchange := "x"
  let queue := "q"
  let set : Except TransportError Memory := do
    let m ← ({} : Memory).declareExchange exchange kind
    let m ← m.declareQueue { name := queue }
    m.bindQueue ⟨queue, exchange, routingKey, arguments⟩
  match set with
  | .error _ => false
  | .ok m =>
    let (channel, m) := m.addChannel
    let (_, m) := m.publish channel ⟨{ destination with exchange }, []⟩ {}
    0 < m.queueLen queue

end Courier.Simulation.TransportBench
