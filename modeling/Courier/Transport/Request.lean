import Courier.Error
import Courier.Message
import Courier.Program

/-!
# What is asked of a connection

A connection opens channels; everything else goes through a channel. Channels, streams of
deliveries and deliveries are known to their owners by number. Letting go of a channel or a stream
is a request too, one that always succeeds.
-/

namespace Courier

/-- A channel of a connection. -/
abbrev ChannelId := Nat

/-- A stream of deliveries on a channel. -/
abbrev StreamId := Nat

/-- A delivery that can be settled. -/
abbrev DeliveryId := Nat

namespace Transport

/-- A request to a connection that is answered at once. -/
inductive Request where
  | openChannel
  | confirmSelect (channel : ChannelId)
  | declareExchange (channel : ChannelId) (name : String) (kind : ExchangeKind) (durable : Bool)
  | declareQueue (channel : ChannelId) (declaration : QueueDeclaration)
  | bindQueue (channel : ChannelId) (queue exchange routingKey : String) (arguments : Headers)
  | qos (channel : ChannelId) (prefetchCount : UInt16)
  | publish (channel : ChannelId) (publishing : Publishing) (options : PublishOptions)
  | consume (channel : ChannelId) (queue : String) (exclusive : Bool)
  | close (channel : ChannelId)
  /-- Let go of a channel, which gives it back to the broker if it is still open. -/
  | dropChannel (channel : ChannelId)
  /-- Let go of a stream. -/
  | dropStream (stream : StreamId)
  | ack (delivery : DeliveryId)
  | nack (delivery : DeliveryId) (requeue : Bool)

instance : Requests Request where
  Answer
    | .openChannel => Except TransportError ChannelId
    | .consume .. => Except TransportError StreamId
    | .dropChannel _ => Unit
    | .dropStream _ => Unit
    | _ => Except TransportError Unit

/-- Programs over a connection. -/
abbrev Session := Program Request

namespace Session

def openChannel : Session (Except TransportError ChannelId) :=
  Program.request Request.openChannel

def confirmSelect (channel : ChannelId) : Session (Except TransportError Unit) :=
  Program.request (Request.confirmSelect channel)

def declareExchange (channel : ChannelId) (name : String) (kind : ExchangeKind) (durable : Bool) :
    Session (Except TransportError Unit) :=
  Program.request (Request.declareExchange channel name kind durable)

def declareQueue (channel : ChannelId) (declaration : QueueDeclaration) :
    Session (Except TransportError Unit) :=
  Program.request (Request.declareQueue channel declaration)

def bindQueue (channel : ChannelId) (queue exchange routingKey : String) (arguments : Headers) :
    Session (Except TransportError Unit) :=
  Program.request (Request.bindQueue channel queue exchange routingKey arguments)

def qos (channel : ChannelId) (prefetchCount : UInt16) : Session (Except TransportError Unit) :=
  Program.request (Request.qos channel prefetchCount)

def publish (channel : ChannelId) (publishing : Publishing) (options : PublishOptions) :
    Session (Except TransportError Unit) :=
  Program.request (Request.publish channel publishing options)

def consume (channel : ChannelId) (queue : String) (exclusive : Bool) :
    Session (Except TransportError StreamId) :=
  Program.request (Request.consume channel queue exclusive)

def close (channel : ChannelId) : Session (Except TransportError Unit) :=
  Program.request (Request.close channel)

def dropChannel (channel : ChannelId) : Session Unit :=
  Program.request (Request.dropChannel channel)

def dropStream (stream : StreamId) : Session Unit :=
  Program.request (Request.dropStream stream)

def ack (delivery : DeliveryId) : Session (Except TransportError Unit) :=
  Program.request (Request.ack delivery)

def nack (delivery : DeliveryId) (requeue : Bool) : Session (Except TransportError Unit) :=
  Program.request (Request.nack delivery requeue)

/-- Close a channel and let go of it, whatever the closing answers. -/
def closeAndDrop (channel : ChannelId) : Session Unit := do
  let _ ← close channel
  dropChannel channel

end Session

/-- What a stream of deliveries has when it is asked. -/
inductive Next where
  /-- Nothing yet; the stream is woken when it shall be asked again. -/
  | waiting
  /-- Nothing any more. -/
  | ended
  | delivered (delivery : DeliveryId) (message : Message)
  | failed (error : TransportError)

end Transport

end Courier
