import Courier.Amqp.Client
import Courier.Publisher.Config

/-!
# A connection through an AMQP client

`transport` carries out each request to a connection by calls of the client. Exchanges, queues and
routing keys are the broker's own, headers travel as a table, and persistent messages have delivery
mode two. A publish that waits to be confirmed fails if the broker says no.
-/

namespace Courier.Amqp

/-- Connect, unless the settings say to run without a broker. The answer says whether there is a
connection. -/
def connect (config : AmqpConfig) : Action (Except TransportError Bool) := do
  if config.standalone then pure (.ok false)
  else
    match ← Action.connect config.url with
    | .ok () => pure (.ok true)
    | .error cause => pure (.error (.channel cause))

/-- The properties of a message that is published at a time, in seconds of the epoch. -/
def propertiesOf (now : Int) (destination : Destination) (persistent : Bool) : Properties where
  contentType := some "application/json"
  headers := some (Table.ofHeaders destination.headers)
  deliveryMode := if persistent then some 2 else none
  timestamp := some (UInt64.ofInt (max now 0))

/-- Publish a message. -/
def publish (now : Int) (channel : ChannelId) (publishing : Publishing) (options : PublishOptions) :
    Action (Except TransportError Unit) := do
  let destination := publishing.destination
  match ← Action.basicPublish channel destination.exchange destination.routingKey publishing.body
      (propertiesOf now destination options.persistent) with
  | .error cause => pure (.error (.publish cause))
  | .ok () =>
    if options.waitForConfirm then
      match ← Action.awaitConfirm channel with
      | .error cause => pure (.error (.publish cause))
      | .ok .nack => pure (.error .nacked)
      | .ok .ack => pure (.ok ())
      | .ok .notRequested => pure (.ok ())
    else pure (.ok ())

/-- What is known of a message that the client delivered. A time is read as a signed number. -/
def Delivery.info (d : Delivery) : DeliveryMeta where
  headers := (d.properties.headers.map Table.toHeaders).getD []
  routingKey := d.routingKey
  exchange := d.exchange
  messageId := d.properties.messageId
  contentType := d.properties.contentType
  timestamp := d.properties.timestamp.map fun time => time.toInt64.toInt

/-- The message that the client delivered. -/
def Delivery.message (d : Delivery) : Message :=
  ⟨d.info, d.data⟩

/-- What a stream yields for what the client's stream yields. -/
def received : Except String Delivery → Except TransportError Message
  | .ok delivery => .ok delivery.message
  | .error cause => .error (.channel cause)

/-- Carry out a request to the connection at a time. Letting go of a channel or a stream is no call
of the client. -/
def transport (now : Int) : (r : Transport.Request) → Action (Requests.Answer r)
  | .openChannel => do pure ((← Action.createChannel).mapError .channel)
  | .confirmSelect channel => do pure ((← Action.confirmSelect channel).mapError .channel)
  | .declareExchange channel name kind durable => do
    pure ((← Action.exchangeDeclare channel name kind durable []).mapError .topology)
  | .declareQueue channel declaration => do
    pure ((← Action.queueDeclare channel declaration.name declaration.durable
      declaration.autoDelete declaration.exclusive
      (Table.ofHeaders declaration.arguments)).mapError .topology)
  | .bindQueue channel queue exchange routingKey arguments => do
    pure ((← Action.queueBind channel queue exchange routingKey
      (Table.ofHeaders arguments)).mapError .topology)
  | .qos channel prefetchCount => do
    pure ((← Action.basicQos channel prefetchCount).mapError .channel)
  | .publish channel publishing options => publish now channel publishing options
  | .consume channel queue exclusive => do
    pure ((← Action.basicConsume channel queue "" exclusive false []).mapError .channel)
  | .close channel => do pure ((← Action.close channel 200 "OK").mapError .channel)
  | .dropChannel _ => pure ()
  | .dropStream _ => pure ()
  | .ack delivery => do pure ((← Action.ack delivery false).mapError .settle)
  | .nack delivery requeue => do pure ((← Action.nack delivery false requeue).mapError .settle)

/-- Talk to a connection through the client, everything at one time. -/
def session {α : Type} (now : Int) (p : Transport.Session α) : Action α :=
  p.interpret (transport now)

end Courier.Amqp
