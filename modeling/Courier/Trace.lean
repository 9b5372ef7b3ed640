import Courier.Error
import Courier.Message
import Courier.Outbox.Relay

/-!
# What an observer of a service sees

Handlers, middlewares and relays leave notes of what they do, in the order in which they do it.
-/

namespace Courier

/-- The payload that a handler was called with. -/
inductive SeenPayload where
  | raw (body : Bytes)
  | typed (value : Json)

/-- One note. -/
inductive Note where
  /-- A handler was called, for the first time (0) or a later one. -/
  | called (handler : String) (call : Nat) (payload : SeenPayload) (info : DeliveryMeta)
    (time : Nat)
  /-- A handler published a message. -/
  | sent (result : Except TransportError Unit)
  /-- A handler is about to end. -/
  | ending (handler : String) (call : Nat) (time : Nat)
  /-- A message passed a middleware on its way in. -/
  | before (middleware : String) (routingKey : String)
  /-- A result passed a middleware on its way out. -/
  | after (middleware : String) (result : Except HandlerError Unit)
  /-- A hook of the relay was told something. -/
  | hook (event : Relay.Hook) (time : Nat)
  /-- The relay asked its storage for something. -/
  | storage (request : Relay.Request)
  /-- The relay sent a row; its token had been cancelled, or had not. -/
  | forwarded (entry : OutboxEntry) (cancelled : Bool)

end Courier
