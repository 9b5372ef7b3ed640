import Courier.Json.Basic
import Courier.Text.Utf8

/-!
# Messages

A publishing is a body on its way to an exchange, a message is a body that came out of a queue,
with what is known about its delivery. The bodies are bytes; headers are JSON members.
-/

namespace Courier

/-- Where a published message is routed. -/
structure Destination where
  /-- The exchange; the empty name is the default exchange, which routes by queue name. -/
  exchange : String := ""
  routingKey : String := ""
  headers : Headers := []

/-- The destination with one more header. -/
def Destination.withHeader (destination : Destination) (key : String) (value : Json) :
    Destination :=
  { destination with headers := Json.Object.insert key value destination.headers }

/-- A body on its way to an exchange. -/
structure Publishing where
  destination : Destination
  body : Bytes

/-- What is known about a delivered message beside its body. -/
structure DeliveryMeta where
  headers : Headers := []
  routingKey : String := ""
  exchange : String := ""
  messageId : Option String := none
  contentType : Option String := none
  /-- When it was published, in seconds of the epoch, if the publisher said so. -/
  timestamp : Option Int := none

/-- What is known of a message of which only the routing key is. -/
def DeliveryMeta.ofRoutingKey (routingKey : String) : DeliveryMeta :=
  { routingKey }

/-- A message as handlers see it. -/
structure Message where
  info : DeliveryMeta
  body : Bytes

/-- How an exchange finds the queues of a message. -/
inductive ExchangeKind where
  | direct
  | fanout
  | topic
  | headers
  deriving DecidableEq, Repr

/-- The name of a kind of exchange. -/
def ExchangeKind.name : ExchangeKind → String
  | .direct => "Direct"
  | .fanout => "Fanout"
  | .topic => "Topic"
  | .headers => "Headers"

/-- What is asked for when a queue is declared. -/
structure QueueDeclaration where
  name : String
  durable : Bool := false
  autoDelete : Bool := false
  exclusive : Bool := false
  /-- Further arguments, such as where dead letters go. -/
  arguments : Headers := []

/-- How a message is published on a channel. -/
structure PublishOptions where
  /-- Shall the message survive a restart of the broker? -/
  persistent : Bool := false
  /-- Shall the call wait until the broker has confirmed the message? -/
  waitForConfirm : Bool := false
  deriving DecidableEq, Repr

/-- What a publisher promises about delivery. -/
inductive Guarantee where
  /-- The message is persistent and the publish returns once the broker confirmed it. -/
  | atLeastOnce
  /-- The message is sent and forgotten. -/
  | atMostOnce
  deriving DecidableEq, Repr

end Courier
