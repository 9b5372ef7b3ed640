import Courier.Consumer.Payload
import Courier.Outbox.Forwarder
import Courier.Proofs.Json.Records
import Courier.Proofs.Outbox.Stored

/-!
# Rows and bodies survive their text

A row is written as JSON, and so is its payload when the row is forwarded. Neither loses anything:
the text of a row spells the row (`OutboxEntry.reader_recovers`), and the body of its message spells
the payload, so that a handler of free JSON gets the value that was stored for the event
(`OutboxEntry.survives`). Said of are rows whose numbers have 64 bits and whose payload and headers
are exact: they hold no floats, and no integers beyond 64 bits.

The limit of the reader is on what it reads. It counts the row itself, and its headers, as levels
of the text of the row, but not as levels of the body.
-/

namespace Courier

/-- A row whose text says all of it. -/
structure OutboxEntry.Exact (e : OutboxEntry) : Prop where
  id : Int64.minValue.toInt ≤ e.id ∧ e.id ≤ Int64.maxValue.toInt
  payload : e.payload.Exact
  headers : Json.Exact (.object e.headers)
  createdAt : Int64.minValue.toInt ≤ e.createdAt ∧ e.createdAt ≤ Int64.maxValue.toInt

namespace OutboxEntry

open Json (Filling)

/-- The fields of a row, filled with the values that are written for them. -/
def fillings (e : OutboxEntry) : List (Filling OutboxEntry) := [
  .of "id" .required .int64 (fun id e => { e with id }) (.int e.id) e.id,
  .of "event_name" .required .text (fun eventName e => { e with eventName }) (.text e.eventName)
    e.eventName,
  .of "payload" .required .free (fun payload e => { e with payload }) e.payload e.payload,
  .of "headers" .required .headers (fun headers e => { e with headers }) (.object e.headers)
    e.headers,
  .of "created_at" .required .int64 (fun createdAt e => { e with createdAt }) (.int e.createdAt)
    e.createdAt,
  .of "published" .required .flag (fun published e => { e with published }) (.bool e.published)
    e.published]

theorem Exact.reads {e : OutboxEntry} (h : e.Exact) : ∀ m ∈ e.fillings, m.Reads := by
  simp only [fillings, List.forall_mem_cons, List.not_mem_nil, false_implies, implies_true, and_true]
  exact ⟨Filling.reads_of (Json.Reader.int64_recovers h.id.1 h.id.2),
    Filling.reads_of (Json.Reader.text_recovers e.eventName),
    Filling.reads_of (Json.Reader.free_recovers h.payload),
    Filling.reads_of (Json.Reader.headers_recovers h.headers),
    Filling.reads_of (Json.Reader.int64_recovers h.createdAt.1 h.createdAt.2),
    Filling.reads_of (Json.Reader.flag_recovers e.published)⟩

theorem reader_eq (e : OutboxEntry) :
    reader = .plainRecord ⟨0, "", .null, [], 0, false⟩ (e.fillings.map (·.field)) := rfl

theorem toJson_eq (e : OutboxEntry) : e.toJson = .object (e.fillings.map Filling.member) := rfl

/-- Filled with its own values, a row is itself again. -/
theorem fill_fillings (e start : OutboxEntry) : Filling.fill e.fillings start = e := rfl

/-- Where the text of a row stands, the row is found. -/
theorem reader_recovers {e : OutboxEntry} (h : e.Exact) : reader.Recovers e.toJson e := by
  have hnames : (e.fillings.map (·.field.name)).Nodup :=
    show ["id", "event_name", "payload", "headers", "created_at", "published"].Nodup by decide
  have hrecord := Json.Reader.plainRecord_recovers ⟨0, "", .null, [], 0, false⟩ e.fillings hnames
    h.reads
  rwa [← reader_eq, ← toJson_eq, fill_fillings] at hrecord

end OutboxEntry

/-! ## Bodies -/

theorem Validator.validate_json (validator : Validator) (value : Json) :
    validator.validate value = .ok () := by
  rcases validator with ⟨_ | _⟩ <;> rfl

/-- A handler of free JSON is handed the value whose text the body is. -/
theorem Handler.typed_encode {value : Json} (h : value.Exact)
    (hdepth : value.nesting < Json.depthLimit) (validator : Validator)
    (handle : Json → DeliveryMeta → Handling Outcome) (info : DeliveryMeta) :
    Handler.typed validator handle ⟨info, value.encode⟩ = handle value info := by
  have hread : Json.decodeAs Payload.reader value.encode = .ok value := by
    refine (Json.decodeAs_encode (Json.Reader.free_recovers h)).trans ?_
    rw [Json.bounded_of_lt hdepth]
  simp only [Handler.typed, decode, hread, validator.validate_json]

/-! ## Rows -/

namespace OutboxEntry

/-- What survives of a row in its own text, and of its payload in the body of its message. -/
structure Survives (e : OutboxEntry) : Prop where
  /-- The text of the row spells the row, unless it nests deeper than a text may. -/
  row : decode e.encode =
    if e.toJson.nesting < Json.depthLimit then .ok e else .error .malformed
  /-- The body that is sent for the row spells its payload, unless that nests too deep. -/
  body : ∀ f : Forwarder, Json.decode (f.publishing e).body =
    if e.payload.nesting < Json.depthLimit then .ok e.payload else .error .malformed
  /-- A handler of free JSON gets from the body the value of the event that the row is stored for,
  and that is the payload of the row. -/
  handled : e.payload.nesting < Json.depthLimit →
    ∀ (o : Outbox) (tx : TransactionId) (now : Int) (event : Event), o.Stores tx now event e →
      event.payload = .ok e.payload ∧
        ∀ (f : Forwarder) (validator : Validator) (handle : Json → DeliveryMeta → Handling Outcome)
          (info : DeliveryMeta),
          Handler.typed validator handle ⟨info, (f.publishing e).body⟩ = handle e.payload info

/-- Rows survive their JSON text, and their payloads survive that of the bodies. -/
theorem survives (e : OutboxEntry) (h : e.Exact) : e.Survives where
  row := Json.decodeAs_encode (reader_recovers h)
  body _ := Json.decode_encode h.payload
  handled hdepth _ _ _ _ hstores :=
    ⟨hstores.payload_eq, fun _ => Handler.typed_encode h.payload hdepth⟩

/-- An event with characters of every kind in its texts, and numbers at both ends in a payload that
nests. -/
def farEvent : Event where
  name := "a\"b\\c\u0000\u001f/é漢😀\u007f"
  tags := ["é", "\"", "é"]
  payload := .ok (.object [
    ("", .array [.int (-9223372036854775808), .array [], .int 18446744073709551615, .object []]),
    ("\n", .object [("A", .null), ("a", .bool false), ("é", .text "\t\"😀\\")]),
    ("z", .int 0)])

/-- The row of that event, with its numbers at the ends. -/
def farRow : OutboxEntry where
  id := -9223372036854775808
  eventName := farEvent.name
  payload := .object [
    ("", .array [.int (-9223372036854775808), .array [], .int 18446744073709551615, .object []]),
    ("\n", .object [("A", .null), ("a", .bool false), ("é", .text "\t\"😀\\")]),
    ("z", .int 0)]
  headers := [("tag.\"", .bool true), ("tag.é", .bool true)]
  createdAt := 9223372036854775807
  published := false

/-- An outbox that gives the lowest id next, with a transaction. -/
def farOutbox : Outbox where
  lastId := -9223372036854775809
  transactions := [some {}]

theorem survives_farRow :
    farRow.Exact ∧ decode farRow.encode = .ok farRow ∧
      farOutbox.Stores 0 9223372036854775807 farEvent farRow ∧
      ∀ handle info, Handler.typed ⟨false⟩ handle ⟨info, (Forwarder.publishing {} farRow).body⟩ =
        handle farRow.payload info := by
  have hexact : farRow.Exact := by
    constructor <;>
      simp only [farRow, Json.Exact, Json.ExactItems, Json.ExactMembers, Json.Object.Ascending] <;>
      decide
  have hstores : farOutbox.Stores 0 9223372036854775807 farEvent farRow := ⟨_, _, rfl, rfl, rfl⟩
  have hsurvives := survives farRow hexact
  exact ⟨hexact, hsurvives.row.trans (if_pos (by decide)), hstores,
    (hsurvives.handled (by decide) _ _ _ _ hstores).2 _ _⟩

end OutboxEntry

end Courier
