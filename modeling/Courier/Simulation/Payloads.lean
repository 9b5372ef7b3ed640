import Courier.Consumer.Payload

/-!
# Payloads of the simulated service

Five payload types of different shapes: a record with a required text, one with rules on texts, one
with a number, one that nests the others, and any JSON value. `Sample` names them, and its carrier
is the payload type itself, so a service can be set up from names.
-/

namespace Courier.Simulation

/-- A user was created. -/
structure UserCreated where
  userId : String

/-- A user signed up. -/
structure Signup where
  email : String
  name : String

/-- A job was queued. -/
structure Job where
  id : Nat

/-- An order was placed. -/
structure Order where
  id : Int
  customer : Option UserCreated
  jobs : List Job

/-- Any JSON value. One with a text under `__fail` cannot be encoded, as that text says. -/
structure FreeForm where
  value : Json

instance : EventPayload UserCreated where
  rules p := .required "user_id" p.userId
  reader := .plainRecord ⟨""⟩ [.required "user_id" .text fun userId _ => { userId }]
  toJson p := .ok (.object [("user_id", .text p.userId)])
  eventName := "user.created"
  tags := ["profile"]

instance : EventPayload Signup where
  rules p := .inOrder [.email "email" p.email, .length "name" p.name 1 8]
  reader := .plainRecord ⟨"", ""⟩ [
    .required "email" .text fun email p => { p with email },
    .required "name" .text fun name p => { p with name }]
  toJson p := .ok (.object [("email", .text p.email), ("name", .text p.name)])
  eventName := "user.signed_up"
  tags := []

instance : EventPayload Job where
  rules p := .check "id" (0 < p.id) "must be positive"
  reader := .plainRecord ⟨0⟩ [.required "id" (.natBelow UInt32.size) fun id _ => { id }]
  toJson p := .ok (.object [("id", .int p.id)])
  eventName := "job.queued"
  tags := []

instance : EventPayload Order where
  rules p := .inOrder [
    .check "id" (0 ≤ p.id) "must not be negative",
    Validate.rules p.customer,
    Validate.rules p.jobs]
  reader := .plainRecord ⟨0, none, []⟩ [
    .required "id" .int64 fun id p => { p with id },
    .optional "customer" (.nullable Payload.reader) fun customer p => { p with customer },
    .defaulted "jobs" (.list Payload.reader) fun jobs p => { p with jobs }]
  toJson p := do
    let customer ← match p.customer with
      | none => .ok .null
      | some customer => Payload.toJson customer
    let jobs ← p.jobs.mapM Payload.toJson
    .ok (.object [("id", .int p.id), ("customer", customer), ("jobs", .array jobs)])
  eventName := "order.placed"
  tags := ["billing", "audit"]

instance : EventPayload FreeForm where
  rules _ := .none
  reader depth bytes := do
    let (value, rest) ← Json.Reader.free depth bytes
    .ok (⟨value⟩, rest)
  toJson p :=
    match (p.value.field "__fail").text? with
    | some text => .error (.ofText text)
    | none => .ok p.value
  eventName := "free.form"
  tags := []

/-- The name of a payload type. -/
inductive Sample where
  | userCreated
  | signup
  | job
  | order
  | free
  deriving DecidableEq, Repr

namespace Sample

/-- The payload type of a name. -/
def Carrier : Sample → Type
  | .userCreated => UserCreated
  | .signup => Signup
  | .job => Job
  | .order => Order
  | .free => FreeForm

instance instEventPayloadCarrier : (sample : Sample) → EventPayload sample.Carrier
  | .userCreated => inferInstanceAs (EventPayload UserCreated)
  | .signup => inferInstanceAs (EventPayload Signup)
  | .job => inferInstanceAs (EventPayload Job)
  | .order => inferInstanceAs (EventPayload Order)
  | .free => inferInstanceAs (EventPayload FreeForm)

/-- The payload that a JSON value spells, if it fits the type. -/
def ofJson? : (sample : Sample) → Json → Option sample.Carrier
  | .free, value => some ⟨value⟩
  | _, value => (Json.decodeAs Payload.reader value.encode).toOption

end Sample

end Courier.Simulation
