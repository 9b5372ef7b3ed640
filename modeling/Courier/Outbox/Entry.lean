import Courier.Json.Printer
import Courier.Json.Refusal
import Courier.Json.Typed
import Courier.Message

/-!
# Outbox rows

An event is written to the outbox as a row: its name, its payload, and one header for each of its
tags. Storage numbers the rows; a row is published once it has been sent.
-/

namespace Courier

/-- A domain event: a name that serves as routing key, tags, and a payload that may refuse to be
encoded. -/
structure Event where
  name : String
  tags : List String := []
  payload : Except Json.Refusal Json

/-- A row about to be inserted. -/
structure NewEntry where
  eventName : String
  payload : Json
  headers : Headers := []
  /-- When the row was made, in seconds of the epoch. -/
  createdAt : Int

namespace NewEntry

def withHeader (e : NewEntry) (key : String) (value : Json) : NewEntry :=
  { e with headers := Json.Object.insert key value e.headers }

/-- The header that stands for a tag. -/
def tagHeader (tag : String) : String :=
  "tag." ++ tag

/-- The row of an event: each tag becomes a header with the value true. -/
def ofEvent (now : Int) (event : Event) : Except Json.Refusal NewEntry := do
  let payload ← event.payload
  .ok {
    eventName := event.name
    payload
    headers := Json.Object.ofPairs (event.tags.map fun tag => (tagHeader tag, .bool true))
    createdAt := now }

end NewEntry

/-- A row of the outbox. -/
structure OutboxEntry where
  id : Int
  eventName : String
  payload : Json
  headers : Headers
  createdAt : Int
  published : Bool

namespace OutboxEntry

/-- The row as JSON, its members in the order of the fields. -/
def toJson (e : OutboxEntry) : Json :=
  .object [
    ("id", .int e.id),
    ("event_name", .text e.eventName),
    ("payload", e.payload),
    ("headers", .object e.headers),
    ("created_at", .int e.createdAt),
    ("published", .bool e.published)]

/-- The JSON text of a row. -/
def encode (e : OutboxEntry) : Bytes :=
  e.toJson.encode

open Json Json.Reader in
/-- Reads a row from JSON; all fields must be given. -/
def reader : Json.Reader OutboxEntry :=
  .plainRecord ⟨0, "", .null, [], 0, false⟩ [
    .required "id" int64 fun id e => { e with id },
    .required "event_name" text fun eventName e => { e with eventName },
    .required "payload" free fun payload e => { e with payload },
    .required "headers" Reader.headers fun headers e => { e with headers },
    .required "created_at" int64 fun createdAt e => { e with createdAt },
    .required "published" flag fun published e => { e with published }]

/-- The row that a text spells. -/
def decode (bytes : Bytes) : Except Json.Fault OutboxEntry :=
  Json.decodeAs reader bytes

end OutboxEntry

end Courier
