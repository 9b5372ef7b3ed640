import Courier.Error
import Courier.Memory.State
import Courier.Outbox.Entry

/-!
# Replies

What the steps of a simulation answer: values of the service, failures of its parts, and the two
failures of a step itself, that it panicked or that it could not be taken.
-/

namespace Courier.Simulation

/-- Why a step failed. -/
inductive Failure where
  | transport (error : TransportError)
  | publish (error : PublishError)
  | consume (error : ConsumeError)
  | outbox (error : OutboxError)
  | relay (error : RelayError)
  | commit (error : CommitError)
  | handler (error : HandlerError)
  /-- The step panicked. -/
  | panicked
  /-- There is no such step, or it names something that does not exist. -/
  | badStep

/-- The answer of a step. -/
inductive Reply where
  | ok
  | failed (failure : Failure)
  | number (value : Int)
  | flag (value : Bool)
  | word (text : String)
  | kind (value : Option ExchangeKind)
  | arguments (value : Option Headers)
  | published (items : List Publishing)
  | acknowledgements (items : List Memory.AckRecord)
  /-- A delivery by its number. -/
  | delivered (delivery : Nat) (message : Message)
  | message (message : Message)
  /-- Rows, each with whether the time of its making is shown. -/
  | rows (items : List (OutboxEntry × Bool))
  /-- A publisher, by its number, is held. -/
  | held (handle publisher : Nat)
  /-- A call waits. -/
  | waiter (waiter : Nat)
  | several (items : List Reply)
  /-- What the events of a run answered, and when it ended. -/
  | ended (events : List Reply) (time : Nat)
  deriving Inhabited

namespace Reply

def badStep : Reply := .failed .badStep

/-- The reply of a result without a value. -/
def ofResult {ε : Type} (failure : ε → Failure) : Except ε Unit → Reply
  | .ok () => .ok
  | .error e => .failed (failure e)

/-- The reply of a call to the connection. -/
def ofTransport : Except TransportError Unit → Reply :=
  ofResult .transport

/-- The reply of a publish. -/
def ofPublish : Except PublishError Unit → Reply :=
  ofResult .publish

end Reply

/-- The time of day in simulations, in seconds of the epoch. -/
def epoch : Int := 1700000000

end Courier.Simulation
