import Courier.Consumer.Handler
import Courier.Json.Printer
import Courier.Json.Refusal
import Courier.Json.Typed
import Courier.Outbox.Entry

/-!
# Typed payloads

A payload type is read from JSON, has rules, and is written as JSON. `decode` turns a body into a
payload or says why it is none, and `typed` makes a handler of messages from one of payloads.
-/

namespace Courier

/-- Types of payloads. -/
class Payload (α : Type) extends Validate α where
  reader : Json.Reader α
  /-- The payload as JSON, its members in the order in which they are written. Encoding may be
  refused. -/
  toJson : α → Except Json.Refusal Json

/-- Payload types of events: their name is the routing key, and each event has tags. -/
class EventPayload (α : Type) extends Payload α where
  eventName : String
  tags : List String

/-- Any JSON value is a payload; nothing is required of it. -/
instance : Payload Json where
  reader := .free
  toJson := .ok

/-- The event of a payload. Events keep their members in the order of the keys. -/
def Event.ofPayload {α : Type} [EventPayload α] (value : α) : Event where
  name := EventPayload.eventName α
  tags := EventPayload.tags α
  payload := (Payload.toJson value).map Json.sorted

/-- Decode a body and check it. -/
def decode {α : Type} [Payload α] (validator : Validator) (body : Bytes) :
    Except DecodeError α :=
  match Json.decodeAs Payload.reader body with
  | .error fault => .error (.deserialize fault)
  | .ok value =>
    match validator.validate value with
    | .error cause => .error (.validation cause)
    | .ok () => .ok value

/-- The handler of messages that decodes each body and refuses those that do not decode. -/
def Handler.typed {α : Type} [Payload α] (validator : Validator)
    (handle : α → DeliveryMeta → Handling Outcome) : Handler := fun message =>
  match decode validator message.body with
  | .error cause => Handling.fail (.decode cause)
  | .ok value => handle value message.info

/-- The handler of messages that passes each body on as it is. -/
def Handler.raw (handle : Bytes → DeliveryMeta → Handling Outcome) : Handler := fun message =>
  handle message.body message.info

end Courier
