import Courier.Broker
import Courier.Proofs.Memory.Conservation
import Courier.Proofs.Publisher.Calls

/-!
# Publishing through a broker

Calls publish bodies and payloads through one broker, and others use its pools in any other way; each
is the program that it is, and goes on by one request at a time, or by one step of a look at a pool. In
between anything may befall the in-memory broker that they all publish to. A call may be let go of
wherever it waits. Without a connection there are no pools.

Each time a call looks at what the calls share, or anything else happens to it, this is put into the
history with what was found and what was left (`Visit`). `Accounted` says what a publish has done by
that: it has put its entry into the log once if it has succeeded, and has changed neither the log nor a
queue if it has failed. A payload that is refused has made no visit at all.
-/

namespace Courier.Posting

open Pooling (Action Request Reaction)

/-- What is asked of a broker, or done with its pools. -/
inductive Order : Type 1 where
  | publish (cancel : TokenId) (destination : Destination) (body : Bytes) (guarantee : Guarantee)
  | publishJson {α : Type} [Payload α] (cancel : TokenId) (destination : Destination) (value : α)
      (guarantee : Guarantee)
  /-- Anything else that uses the pools. -/
  | other (program : Action Unit)

/-- How it is carried out, with its result if it is a publish. -/
def Order.program (broker : Broker) : Order → Action (Option (Except PublishError Unit))
  | .publish cancel destination body guarantee =>
    (broker.publish cancel destination body guarantee).bind fun result => .done (some result)
  | @publishJson _ _ cancel destination value guarantee =>
    (broker.publishJson cancel destination value guarantee).bind fun result => .done (some result)
  | .other program => program.bind fun _ => .done none

structure Call where
  order : Order
  rest : Action (Option (Except PublishError Unit))
  /-- How far it has come in looking for a publisher. -/
  look : Pool.Look := .rests
  /-- The pool that it has borrowed a publisher from. -/
  guard : Option Guarantee := none

/-- What came of a publish, if it has returned. -/
def Call.result? (call : Call) : Option (Except PublishError Unit) :=
  match call.rest with
  | .done result => result
  | .ask .. => none

/-- What the calls share. -/
structure Shared where
  memory : Memory := {}
  /-- The pools, if there is a connection. -/
  pools : Option Pools

/-- A look of a call at what is shared, or something else that happened to it. -/
structure Visit where
  call : Option Nat
  found : Shared
  left : Shared

namespace Visit

variable (v : Visit)

/-- What it put into the log. -/
def appended : List Publishing :=
  v.left.memory.published.drop v.found.memory.published.length

/-- It changed neither the log nor the messages of a queue. -/
structure Traceless : Prop where
  log : v.left.memory.published = v.found.memory.published
  queues : ∀ queue, v.left.memory.ready queue = v.found.memory.ready queue

end Visit

structure System where
  shared : Shared
  calls : List Call := []
  history : List Visit := []

inductive Event : Type 1 where
  | start (order : Order)
  /-- A call goes on. If it waits for a publisher, its wait may have been cancelled, and it may see
  that before a wake-up. -/
  | run (call : Nat) (cancelled cancelFirst : Bool)
  /-- A call is let go of, and its publisher is as it is then. -/
  | letGo (call : Nat) (publisher : ChannelPublisher)
  /-- Something else befalls the in-memory broker. -/
  | befall (activity : Memory.Activity)

namespace Shared

variable (s : Shared)

/-- What comes of a request of a call. -/
def answer (i : Nat) (call : Call) (cancelled cancelFirst : Bool) :
    (r : Request) → Reaction Call (Requests.Answer r) × Shared
  | .session r =>
    let (a, memory) := s.memory.answer r
    (.answered a call, { s with memory })
  | .acquire guarantee _ =>
    match s.pools with
    | none => (.answered (.error .standalone) call, s)
    | some pools =>
      let (progress, pool, _) := (pools.get guarantee).step (fun _ => .of guarantee) cancelled
        cancelFirst i call.look
      let s := { s with pools := some (pools.set pool guarantee) }
      match progress with
      | .goesOn look => (.goesOn { call with look }, s)
      | .comes .waits => (.waits, s)
      | .comes (.refused e) => (.answered (.error e) { call with look := .rests }, s)
      | .comes (.lent publisher) =>
        (.answered (.ok publisher) { call with guard := some guarantee, look := .rests }, s)
  | .putBack guarantee publisher =>
    match s.pools with
    | none => (.answered none { call with guard := none }, s)
    | some pools =>
      let (late, pool, _) := (pools.get guarantee).putBack publisher
      (.answered late { call with guard := none },
        { s with pools := some (pools.set pool guarantee) })
  | .drain guarantee =>
    match s.pools with
    | none => (.answered [] call, s)
    | some pools =>
      let (idle, pool, _) := (pools.get guarantee).drain
      (.answered idle call, { s with pools := some (pools.set pool guarantee) })
  | .shrink guarantee =>
    (.answered () call,
      { s with pools := s.pools.map fun pools => pools.set (pools.get guarantee).shrink guarantee })
  | .detach _ => (.answered () call, s)

/-- A call that waits for a publisher goes away. -/
def abandon (i : Nat) : Request → Shared
  | .acquire guarantee _ =>
    { s with pools := s.pools.map fun pools =>
        pools.set ((pools.get guarantee).abandon i).1 guarantee }
  | _ => s

end Shared

namespace System

variable (broker : Broker) (s : System)

/-- A new broker that nobody has called yet. -/
def new (config : PoolConfig) : System where
  shared := { pools := if broker.connected then some (Pools.new config) else none }

/-- Put it into the history. -/
def visit (call : Option Nat) (left : Shared) : System :=
  { s with shared := left, history := s.history ++ [⟨call, s.shared, left⟩] }

def start (order : Order) : System :=
  { s with calls := s.calls ++ [{ order, rest := order.program broker }] }

def setCall (i : Nat) (call : Call) : System :=
  { s with calls := s.calls.set i call }

/-- A late publisher is closed by a call of its own. -/
def detach : Request → System
  | .detach publisher =>
    s.start broker (.other ((Pooling.session publisher.close).bind fun _ => .done ()))
  | _ => s

def run (i : Nat) (cancelled cancelFirst : Bool) : System :=
  match s.calls[i]? with
  | none => s
  | some call =>
    match call.rest with
    | .done _ => s
    | .ask r next =>
      match s.shared.answer i call cancelled cancelFirst r with
      | (.waits, left) => s.visit (some i) left
      | (.goesOn call, left) => (s.visit (some i) left).setCall i call
      | (.answered a call, left) =>
        ((s.visit (some i) left).setCall i { call with rest := next a }).detach broker r

/-- Who has borrowed a publisher gives it back and does nothing more. In the midst of a look no call is
let go of. -/
def letGo (i : Nat) (publisher : ChannelPublisher) : System :=
  match s.calls[i]? with
  | none => s
  | some call =>
    match call.rest, call.guard, call.look with
    | .ask _ _, some guarantee, .rests =>
      s.setCall i { call with
        rest := (Pooling.release guarantee publisher).bind fun _ => .done none }
    | .ask r _, none, .rests =>
      (s.visit (some i) (s.shared.abandon i r)).setCall i { call with rest := .done none }
    | _, _, _ => s

def step : Event → System
  | .start order => s.start broker order
  | .run i cancelled cancelFirst => s.run broker i cancelled cancelFirst
  | .letGo i publisher => s.letGo i publisher
  | .befall activity => s.visit none { s.shared with memory := s.shared.memory.act activity }

/-- Any interleaving of events. -/
def after (events : List Event) : System :=
  events.foldl (step broker) s

/-! ## What calls have done -/

/-- The visits of a call. -/
def visits (i : Nat) : List Visit :=
  s.history.filter (·.call == some i)

/-- What a call has put into the log. -/
def entries (i : Nat) : List Publishing :=
  (s.visits i).flatMap Visit.appended

end System

/-- What a call has done that publishes this. -/
structure Effect (s : System) (i : Nat) (call : Call) (publishing : Publishing) : Prop where
  success : call.result? = some (.ok ()) → s.entries i = [publishing]
  failure : ∀ e, call.result? = some (.error e) → ∀ v ∈ s.visits i, v.Traceless
  /-- As long as it has not returned, and also if it has been let go of. -/
  once : s.entries i = [] ∨ s.entries i = [publishing]
  /-- A body is neither checked nor encoded. -/
  kinds : (∀ cause, call.result? ≠ some (.error (.validation cause))) ∧
    ∀ cause, call.result? ≠ some (.error (.encoding cause))

/-- What a call has done that publishes a payload. -/
structure PayloadEffect {α : Type} [Payload α] (broker : Broker) (s : System) (i : Nat) (call : Call)
    (destination : Destination) (value : α) : Prop where
  success : call.result? = some (.ok ()) → broker.validator.validate value = .ok () ∧
    ∃ json, Payload.toJson value = .ok json ∧ s.entries i = [⟨destination, json.encode⟩]
  failure : ∀ e, call.result? = some (.error e) → ∀ v ∈ s.visits i, v.Traceless
  once : s.entries i = [] ∨
    ∃ json, Payload.toJson value = .ok json ∧ s.entries i = [⟨destination, json.encode⟩]
  /-- A payload is checked before anything else is done. -/
  invalid : ∀ cause, call.result? = some (.error (.validation cause)) ↔
    broker.validator.validate value = .error cause
  /-- It is encoded next. -/
  refused : ∀ cause, call.result? = some (.error (.encoding cause)) ↔
    broker.validator.validate value = .ok () ∧ Payload.toJson value = .error cause
  /-- If that fails, neither the pools nor the in-memory broker have been looked at. -/
  unseen : (∃ cause, call.result? = some (.error (.validation cause))) ∨
    (∃ cause, call.result? = some (.error (.encoding cause))) → s.visits i = []

/-- What has come of all publishes. -/
structure Accounted (broker : Broker) (s : System) : Prop where
  /-- The log is what was put into it by all visits, in their order. -/
  log : s.shared.memory.published = s.history.flatMap Visit.appended
  publish : ∀ i call cancel destination body guarantee, s.calls[i]? = some call →
    call.order = .publish cancel destination body guarantee → Effect s i call ⟨destination, body⟩
  publishJson : ∀ i call (α : Type) (_ : Payload α) cancel destination (value : α) guarantee,
    s.calls[i]? = some call → call.order = .publishJson cancel destination value guarantee →
    PayloadEffect broker s i call destination value

end Courier.Posting
