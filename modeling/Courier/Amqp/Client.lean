import Courier.Amqp.Value
import Courier.Message
import Courier.Transport.Request

/-!
# What is asked of an AMQP client

The calls of a client for an AMQP broker, with the options that are set, and what it delivers. A
call that fails answers the client's own text.
-/

namespace Courier.Amqp

/-- The properties of a message. -/
structure Properties where
  contentType : Option String := none
  headers : Option Table := none
  /-- Two for a persistent message. -/
  deliveryMode : Option Nat := none
  messageId : Option String := none
  timestamp : Option UInt64 := none

/-- A message as the client delivers it. -/
structure Delivery where
  exchange : String
  routingKey : String
  data : Bytes
  properties : Properties

/-- What comes back for a message that was published. -/
inductive Confirmation where
  /-- The broker has taken the message. -/
  | ack
  /-- The broker has refused the message. -/
  | nack
  /-- The broker confirms nothing, for the channel is not in confirm mode. -/
  | notRequested
  deriving DecidableEq, Repr

/-- A call of the client. -/
inductive Call where
  | connect (url : String)
  | createChannel
  | confirmSelect (channel : ChannelId)
  | exchangeDeclare (channel : ChannelId) (name : String) (kind : ExchangeKind) (durable : Bool)
      (arguments : Table)
  | queueDeclare (channel : ChannelId) (name : String) (durable autoDelete exclusive : Bool)
      (arguments : Table)
  | queueBind (channel : ChannelId) (queue exchange routingKey : String) (arguments : Table)
  | basicQos (channel : ChannelId) (prefetchCount : UInt16)
  | basicPublish (channel : ChannelId) (exchange routingKey : String) (body : Bytes)
      (properties : Properties)
  /-- Wait for the confirmation of the message that was published last. -/
  | awaitConfirm (channel : ChannelId)
  | basicConsume (channel : ChannelId) (queue consumerTag : String) (exclusive noAck : Bool)
      (arguments : Table)
  | close (channel : ChannelId) (code : Nat) (text : String)
  | ack (delivery : DeliveryId) (multiple : Bool)
  | nack (delivery : DeliveryId) (multiple requeue : Bool)

instance : Requests Call where
  Answer
    | .createChannel => Except String ChannelId
    | .basicConsume .. => Except String StreamId
    | .awaitConfirm _ => Except String Confirmation
    | _ => Except String Unit

/-- Programs over a client. -/
abbrev Action := Program Call

namespace Action

def connect (url : String) : Action (Except String Unit) :=
  Program.request (Call.connect url)

def createChannel : Action (Except String ChannelId) :=
  Program.request Call.createChannel

def confirmSelect (channel : ChannelId) : Action (Except String Unit) :=
  Program.request (Call.confirmSelect channel)

def exchangeDeclare (channel : ChannelId) (name : String) (kind : ExchangeKind) (durable : Bool)
    (arguments : Table) : Action (Except String Unit) :=
  Program.request (Call.exchangeDeclare channel name kind durable arguments)

def queueDeclare (channel : ChannelId) (name : String) (durable autoDelete exclusive : Bool)
    (arguments : Table) : Action (Except String Unit) :=
  Program.request (Call.queueDeclare channel name durable autoDelete exclusive arguments)

def queueBind (channel : ChannelId) (queue exchange routingKey : String) (arguments : Table) :
    Action (Except String Unit) :=
  Program.request (Call.queueBind channel queue exchange routingKey arguments)

def basicQos (channel : ChannelId) (prefetchCount : UInt16) : Action (Except String Unit) :=
  Program.request (Call.basicQos channel prefetchCount)

def basicPublish (channel : ChannelId) (exchange routingKey : String) (body : Bytes)
    (properties : Properties) : Action (Except String Unit) :=
  Program.request (Call.basicPublish channel exchange routingKey body properties)

def awaitConfirm (channel : ChannelId) : Action (Except String Confirmation) :=
  Program.request (Call.awaitConfirm channel)

def basicConsume (channel : ChannelId) (queue consumerTag : String) (exclusive noAck : Bool)
    (arguments : Table) : Action (Except String StreamId) :=
  Program.request (Call.basicConsume channel queue consumerTag exclusive noAck arguments)

def close (channel : ChannelId) (code : Nat) (text : String) : Action (Except String Unit) :=
  Program.request (Call.close channel code text)

def ack (delivery : DeliveryId) (multiple : Bool) : Action (Except String Unit) :=
  Program.request (Call.ack delivery multiple)

def nack (delivery : DeliveryId) (multiple requeue : Bool) : Action (Except String Unit) :=
  Program.request (Call.nack delivery multiple requeue)

end Action

end Courier.Amqp
