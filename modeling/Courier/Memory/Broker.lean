import Courier.Memory.State

/-!
# The in-memory broker

Routing, declaring, publishing, consuming and settling. The default exchange, whose name is empty,
routes to the queue named by the routing key; any other exchange must be declared and routes to
every queue with a binding that matches, one copy each. A rejected message goes where its queue's
arguments send dead letters, and is lost if that leads nowhere. A call that fails changes nothing,
injected publish failures apart, which count down.

`Memory.answer` carries out the requests of a connection. A stream looks what it has (`Memory.look`)
and, if it has nothing, waits for a message (`Memory.lieDown`); `Memory.next` is both without anyone
between.
-/

namespace Courier.Memory

/-- Does the binding's exchange, being of this kind, send the message to its queue? -/
def Binding.matches (b : Binding) (kind : ExchangeKind) (destination : Destination) : Bool :=
  match kind with
  | .direct => b.routingKey == destination.routingKey
  | .fanout => true
  | .topic => topicMatches b.routingKey destination.routingKey
  | .headers => headersMatch b.arguments destination.headers

/-- The queues with a matching binding, in the order of their first one, each once. -/
def boundQueues (kind : ExchangeKind) (destination : Destination) (bindings : List Binding) :
    List String :=
  bindings.foldl (fun names b =>
    if b.exchange == destination.exchange && !names.contains b.queue && b.matches kind destination
    then names ++ [b.queue] else names) []

/-- The queues that a message goes to. -/
def route (m : Memory) (destination : Destination) : Except TransportError (List String) :=
  if destination.exchange.isEmpty then
    .ok (if m.queueExists destination.routingKey then [destination.routingKey] else [])
  else
    match m.exchangeKind destination.exchange with
    | none => .error (.publish s!"no exchange '{destination.exchange}'")
    | some kind => .ok ((boundQueues kind destination m.bindings).filter m.queueExists)

/-- Where a queue sends a rejected message, if it sends it anywhere. -/
def Queue.deadLetterDestination (q : Queue) (message : Message) : Option Destination :=
  match (q.declaration.arguments.get? "x-dead-letter-exchange").bind Json.text? with
  | none => none
  | some exchange =>
    let key := (q.declaration.arguments.get? "x-dead-letter-routing-key").bind Json.text?
    some {
      exchange
      routingKey := key.getD message.info.routingKey
      headers := message.info.headers }

/-- Send a rejected message of a queue on as a dead letter. -/
def deadLetter (m : Memory) (queue : String) (message : Message) : Memory :=
  match (m.queue? queue).bind (·.deadLetterDestination message) with
  | none => m
  | some destination =>
    match m.route destination with
    | .error _ => m
    | .ok targets =>
      let dead := { message with
        info := { message.info with
          exchange := destination.exchange
          routingKey := destination.routingKey } }
      targets.foldl (fun m target => m.push target dead) m

/-! ## Channels -/

/-- The channel, if it can still be used. -/
def openChannel? (m : Memory) (channel : ChannelId) : Except TransportError Channel :=
  match m.channels[channel]? with
  | some c => if c.closed then .error (.channel "channel is closed") else .ok c
  | none => .error (.channel "channel is closed")

/-- Open a channel. -/
def addChannel (m : Memory) : ChannelId × Memory :=
  (m.channels.length, { m with channels := m.channels ++ [{}] })

/-- Give a channel back, once: all that wait on its queues are woken. -/
def release (m : Memory) (channel : ChannelId) : Memory :=
  match m.channels[channel]? with
  | none => m
  | some c =>
    if c.closed then m
    else
      let m := { m with channels := m.channels.set channel { c with closed := true } }
      c.consuming.foldl (fun m queue => m.notify queue Notify.notifyAll) m

/-- Let publishes on the channel be confirmed. -/
def confirmSelect (m : Memory) (channel : ChannelId) : Except TransportError Memory := do
  let c ← m.openChannel? channel
  .ok { m with channels := m.channels.set channel { c with confirm := true } }

/-! ## Topology -/

/-- Declare an exchange; it may be declared again as the same kind. -/
def declareExchange (m : Memory) (name : String) (kind : ExchangeKind) :
    Except TransportError Memory :=
  match m.exchangeKind name with
  | some existing =>
    if existing = kind then .ok m
    else .error (.topology s!"exchange '{name}' already declared as {existing.name}")
  | none => .ok { m with exchanges := m.exchanges ++ [(name, kind)] }

/-- Are two values equal as JSON objects? -/
def sameArguments (a b : Headers) : Bool :=
  Json.object a == Json.object b

/-- Declare a queue; it may be declared again with the same durability and arguments. -/
def declareQueue (m : Memory) (declaration : QueueDeclaration) : Except TransportError Memory :=
  match m.queue? declaration.name with
  | some existing =>
    if existing.declaration.durable == declaration.durable &&
        sameArguments existing.declaration.arguments declaration.arguments then .ok m
    else .error (.topology
      s!"queue '{declaration.name}' already declared with different parameters")
  | none => .ok { m with queues := m.queues ++ [(declaration.name, { declaration })] }

/-- Is the binding there already? -/
def hasBinding (m : Memory) (b : Binding) : Bool :=
  m.bindings.any fun c =>
    c.queue == b.queue && c.exchange == b.exchange && c.routingKey == b.routingKey &&
      sameArguments c.arguments b.arguments

/-- Bind a queue to an exchange, both of which must exist; a binding is kept once. -/
def bindQueue (m : Memory) (b : Binding) : Except TransportError Memory :=
  if !m.queueExists b.queue then .error (.topology s!"no queue '{b.queue}'")
  else if (m.exchangeKind b.exchange).isNone then
    .error (.topology s!"no exchange '{b.exchange}'")
  else .ok (if m.hasBinding b then m else { m with bindings := m.bindings ++ [b] })

/-! ## Publishing -/

/-- The metadata of the copies of one publishing. -/
def copyInfo (m : Memory) (publishing : Publishing) (id : Nat) : DeliveryMeta where
  headers := publishing.destination.headers
  routingKey := publishing.destination.routingKey
  exchange := publishing.destination.exchange
  messageId := some s!"msg-{id}"
  contentType := some "application/json"
  timestamp := some m.now

/-- Accept a message that goes to these queues. -/
def accept (m : Memory) (publishing : Publishing) (targets : List String) : Memory :=
  let id := m.lastMessageId + 1
  let message : Message := ⟨m.copyInfo publishing id, publishing.body⟩
  targets.foldl (fun m target => m.push target message)
    { m with published := m.published ++ [publishing], lastMessageId := id }

/-- Publish a message. -/
def publish (m : Memory) (channel : ChannelId) (publishing : Publishing)
    (options : PublishOptions) : Except TransportError Unit × Memory :=
  match m.openChannel? channel with
  | .error e => (.error e, m)
  | .ok c =>
    if options.waitForConfirm && !c.confirm then
      (.error (.publish "channel is not in confirm mode"), m)
    else if 0 < m.failingPublishes then
      (.error (if options.waitForConfirm then .nacked else .publish "injected publish failure"),
        { m with failingPublishes := m.failingPublishes - 1 })
    else
      match m.route publishing.destination with
      | .error e => (.error e, m)
      | .ok targets => (.ok (), m.accept publishing targets)

/-! ## Consuming and settling -/

/-- Start a stream of deliveries of a queue. -/
def consume (m : Memory) (channel : ChannelId) (queue : String) :
    Except TransportError (StreamId × Memory) := do
  let c ← m.openChannel? channel
  if m.queueExists queue then
    .ok (m.streams.length, { m with
      streams := m.streams ++ [⟨channel, queue⟩]
      channels := m.channels.set channel { c with consuming := c.consuming ++ [queue] } })
  else .error (.channel s!"no queue '{queue}'")

/-- Has the stream's channel been closed? -/
def isClosed (m : Memory) (channel : ChannelId) : Bool :=
  match m.channels[channel]? with
  | some c => c.closed
  | none => true

/-- What an awake stream has: its end if its channel is closed, else the next message, if there is one.
-/
def draw (m : Memory) (s : Stream) : Transport.Next × Memory :=
  if m.isClosed s.channel then (.ended, m)
  else
    match m.pop s.queue with
    | some (message, m) =>
      (.delivered m.deliveries.length message,
        { m with deliveries := m.deliveries ++ [⟨s.queue, message, false⟩] })
    | none => (.waiting, m)

/-- Look what a stream has. It has nothing if it waits for a message and has not been woken; if it is
awake and has nothing, it does not wait for a message yet. -/
def look (m : Memory) (stream : StreamId) : Transport.Next × Memory :=
  match m.streams[stream]? with
  | none => (.ended, m)
  | some s =>
    match m.queue? s.queue with
    | none => (.ended, m)
    | some q =>
      if q.available.sleeps stream then (.waiting, m)
      else
        let m := match q.available.takeWakeUp stream with
          | some available => m.modifyQueue s.queue fun q => { q with available }
          | none => m
        m.draw s

/-- A stream that had nothing waits for a message from now on, unless a wake-up was kept, which it then
takes. The answer says whether it waits. -/
def lieDown (m : Memory) (stream : StreamId) : Bool × Memory :=
  match m.streams[stream]? with
  | none => (true, m)
  | some s =>
    match m.queue? s.queue with
    | none => (true, m)
    | some q =>
      if q.available.knows stream then (true, m)
      else
        let lain := q.available.sleepOrTake stream
        (!lain.2, m.modifyQueue s.queue fun q => { q with available := lain.1 })

/-- Does the stream wait for a message? -/
def sleeps (m : Memory) (stream : StreamId) : Bool :=
  match m.streams[stream]? with
  | none => false
  | some s => (m.queue? s.queue).any (·.available.sleeps stream)

/-- Ask a stream while nobody else does anything. If it has nothing, it waits for a message; a wake-up
that was kept is passed over, since there would be nothing for it still. -/
def next (m : Memory) (stream : StreamId) : Transport.Next × Memory :=
  match m.look stream with
  | (.waiting, m) =>
    match m.lieDown stream with
    | (true, m) => (.waiting, m)
    | (false, m) => (.waiting, (m.lieDown stream).2)
  | found => found

/-- Let go of a stream; a wake-up meant for it passes on. -/
def dropStream (m : Memory) (stream : StreamId) : Memory :=
  match m.streams[stream]? with
  | none => m
  | some s => m.notify s.queue (·.abandon stream)

/-- Settle a delivery, once. -/
def settle (m : Memory) (delivery : DeliveryId) (outcome : Outcome) :
    Except TransportError (Delivery × Memory) :=
  match m.deliveries[delivery]? with
  | none => .error (.settle "delivery already settled")
  | some d =>
    if d.settled then .error (.settle "delivery already settled")
    else .ok (d, { m with
      deliveries := m.deliveries.set delivery { d with settled := true }
      acknowledgements := m.acknowledgements ++
        [⟨d.queue, d.message.info.routingKey, d.message.info.messageId, outcome⟩] })

/-- Acknowledge a delivery. -/
def ack (m : Memory) (delivery : DeliveryId) : Except TransportError Memory := do
  let (_, m) ← m.settle delivery .ack
  .ok m

/-- Refuse a delivery: it goes back to the front of its queue or becomes a dead letter. -/
def nack (m : Memory) (delivery : DeliveryId) (requeue : Bool) : Except TransportError Memory := do
  let (d, m) ← m.settle delivery (.nack requeue)
  .ok (if requeue then m.requeue d.queue d.message else m.deadLetter d.queue d.message)

/-! ## Requests -/

/-- The answer of an operation and the state after it; one that failed changes nothing. -/
def unchangedOnError (m : Memory) :
    Except TransportError Memory → Except TransportError Unit × Memory
  | .ok m => (.ok (), m)
  | .error e => (.error e, m)

/-- Run an operation on a channel that must be open. -/
def onOpen (m : Memory) (channel : ChannelId) (operation : Except TransportError Memory) :
    Except TransportError Unit × Memory :=
  m.unchangedOnError do
    let _ ← m.openChannel? channel
    operation

/-- Carry out a request to the broker. -/
def answer : (r : Transport.Request) → Memory → Requests.Answer r × Memory
  | .openChannel, m =>
    let (channel, m) := m.addChannel
    (.ok channel, m)
  | .confirmSelect channel, m => m.unchangedOnError (m.confirmSelect channel)
  | .declareExchange channel name kind _, m => m.onOpen channel (m.declareExchange name kind)
  | .declareQueue channel declaration, m => m.onOpen channel (m.declareQueue declaration)
  | .bindQueue channel queue exchange routingKey arguments, m =>
    m.onOpen channel (m.bindQueue ⟨queue, exchange, routingKey, arguments⟩)
  | .qos channel _, m => m.onOpen channel (.ok m)
  | .publish channel publishing options, m => m.publish channel publishing options
  | .consume channel queue _, m =>
    match m.consume channel queue with
    | .ok (stream, m) => (.ok stream, m)
    | .error e => (.error e, m)
  | .close channel, m => (.ok (), m.release channel)
  | .dropChannel channel, m => ((), m.release channel)
  | .dropStream stream, m => ((), m.dropStream stream)
  | .ack delivery, m => m.unchangedOnError (m.ack delivery)
  | .nack delivery requeue, m => m.unchangedOnError (m.nack delivery requeue)

end Courier.Memory
