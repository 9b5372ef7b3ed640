import Courier.Memory.Broker

/-!
# A tapped connection

The connection of a simulated service: it notes every call and hands it on to the in-memory
broker, unless it was told to let a method fail. A fault lets some calls of its method succeed and
then so many fail, without their reaching the broker. Two faults concern the next message of a
stream, which is lost: the stream ends, or it yields an error. A third one makes `qos` panic. A
fault is looked at, and counts down, only if none before it struck: `qos` fails before it panics,
and a stream ends before it yields an error.
-/

namespace Courier.Simulation

open Transport (Request Next)
open Program (Reaction)

/-- What can be told to fail. -/
inductive Method where
  | openChannel
  | confirmSelect
  | declareExchange
  | declareQueue
  | bindQueue
  | qos
  | publish
  | consume
  | close
  | ack
  | nack
  /-- The next message of a stream is an error instead. -/
  | delivery
  /-- The next message of a stream is its end instead. -/
  | endStream
  | qosPanic
  deriving DecidableEq, Repr

/-- The name of a method. -/
def Method.name : Method → String
  | .openChannel => "open"
  | .confirmSelect => "confirm_select"
  | .declareExchange => "declare_exchange"
  | .declareQueue => "declare_queue"
  | .bindQueue => "bind_queue"
  | .qos => "qos"
  | .publish => "publish"
  | .consume => "consume"
  | .close => "close"
  | .ack => "ack"
  | .nack => "nack"
  | .delivery => "delivery"
  | .endStream => "end_stream"
  | .qosPanic => "qos_panic"

/-- All methods. -/
def Method.all : List Method :=
  [.openChannel, .confirmSelect, .declareExchange, .declareQueue, .bindQueue, .qos, .publish,
    .consume, .close, .ack, .nack, .delivery, .endStream, .qosPanic]

/-- The failure of a method that was told to fail. -/
def Method.error (method : Method) : TransportError :=
  let text := s!"injected {method.name}"
  match method with
  | .declareExchange | .declareQueue | .bindQueue => .topology text
  | .publish => .publish text
  | .ack | .nack => .settle text
  | _ => .channel text

/-- How often a method succeeds, and how often it fails then. -/
structure Fault where
  method : Method
  skip : Nat
  count : Nat
  deriving DecidableEq, Repr

/-- A connection to an in-memory broker, with the requests it saw and the faults it was told. -/
structure Tap where
  broker : Memory := {}
  calls : List Request := []
  faults : List Fault := []

namespace Tap

/-- Let a method fail; this replaces what it was told before. -/
def fail (tap : Tap) (fault : Fault) : Tap :=
  { tap with faults := fault :: tap.faults.filter (·.method ≠ fault.method) }

/-- Does this call of the method fail? Each call counts the method's fault down. -/
def strikes (tap : Tap) (method : Method) : Bool × Tap :=
  match tap.faults.find? (·.method = method) with
  | none => (false, tap)
  | some fault =>
    if 0 < fault.skip then (false, tap.fail { fault with skip := fault.skip - 1 })
    else if 0 < fault.count then (true, tap.fail { fault with count := fault.count - 1 })
    else (false, tap)

/-- The method that a request calls, if it is a call. -/
def method? : Request → Option Method
  | .openChannel => some .openChannel
  | .confirmSelect _ => some .confirmSelect
  | .declareExchange .. => some .declareExchange
  | .declareQueue .. => some .declareQueue
  | .bindQueue .. => some .bindQueue
  | .qos .. => some .qos
  | .publish .. => some .publish
  | .consume .. => some .consume
  | .close _ => some .close
  | .dropChannel _ => none
  | .dropStream _ => none
  | .ack _ => some .ack
  | .nack .. => some .nack

/-- The answer of a request that fails. -/
def refusal (error : TransportError) : (r : Request) → Requests.Answer r
  | .openChannel => .error error
  | .confirmSelect _ => .error error
  | .declareExchange .. => .error error
  | .declareQueue .. => .error error
  | .bindQueue .. => .error error
  | .qos .. => .error error
  | .publish .. => .error error
  | .consume .. => .error error
  | .close _ => .error error
  | .dropChannel _ => ()
  | .dropStream _ => ()
  | .ack _ => .error error
  | .nack .. => .error error

/-- Hand a request on to the broker. -/
def forward (tap : Tap) (r : Request) : Requests.Answer r × Tap :=
  let (answer, broker) := Memory.answer r tap.broker
  (answer, { tap with broker })

/-- Does this request panic? The caller lets go of its channel then. -/
def panics (tap : Tap) : Request → Bool × Tap
  | .qos channel _ =>
    match tap.strikes .qosPanic with
    | (true, tap) => (true, (tap.forward (.dropChannel channel)).2)
    | (false, tap) => (false, tap)
  | _ => (false, tap)

/-- Hand a request on, unless it panics. -/
def attempt (tap : Tap) (r : Request) : Reaction (Requests.Answer r) × Tap :=
  match tap.panics r with
  | (true, tap) => (.panicked, tap)
  | (false, tap) =>
    let (answer, tap) := tap.forward r
    (.ready answer, tap)

/-- Carry out a request: note it if it is a call, then fail it or hand it on. -/
def react (tap : Tap) (r : Request) : Reaction (Requests.Answer r) × Tap :=
  match method? r with
  | none => tap.attempt r
  | some method =>
    match { tap with calls := tap.calls ++ [r] }.strikes method with
    | (true, tap) => (.ready (refusal method.error r), tap)
    | (false, tap) => tap.attempt r

/-- Ask a stream, and lose its message if that was told to happen. -/
def next (tap : Tap) (stream : StreamId) : Next × Tap :=
  let (next, broker) := tap.broker.next stream
  let tap := { tap with broker }
  match next with
  | .delivered delivery message =>
    match tap.strikes .endStream with
    | (true, tap) => (.ended, tap)
    | (false, tap) =>
      match tap.strikes .delivery with
      | (true, tap) => (.failed Method.delivery.error, tap)
      | (false, tap) => (.delivered delivery message, tap)
  | next => (next, tap)

/-- Send a message straight to the broker, on a channel of its own, without its being noted. -/
def send (tap : Tap) (publishing : Publishing) : Except TransportError Unit × Tap :=
  let (channel, broker) := tap.broker.addChannel
  let (result, broker) := broker.publish channel publishing {}
  (result, { tap with broker := broker.release channel })

end Tap

end Courier.Simulation
