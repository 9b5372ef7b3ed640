import Courier.Json.Reader
import Courier.Json.Refusal
import Courier.Validation

/-!
# Failures

Each part of the service has a type of failures, one constructor per cause. `message` is the text
of a failure, and every wrapper ends its text with a line break; `sources` are the texts of what
caused it, the nearest cause first.
-/

namespace Courier

/-- A failure of the connection to a broker. -/
inductive TransportError where
  /-- A channel could not be opened or used. -/
  | channel (cause : String)
  /-- An exchange, a queue or a binding could not be declared. -/
  | topology (cause : String)
  /-- A message could not be published. -/
  | publish (cause : String)
  /-- The broker refused a message that was to be confirmed. -/
  | nacked
  /-- A delivery could not be settled. -/
  | settle (cause : String)
  deriving DecidableEq, Repr

namespace TransportError

def message : TransportError → String
  | .channel cause => s!"Channel error: {cause}\n"
  | .topology cause => s!"Topology error: {cause}\n"
  | .publish cause => s!"Publish error: {cause}\n"
  | .nacked => "Publish error: message nacked by broker\n"
  | .settle cause => s!"Acknowledgement error: {cause}\n"

def sources : TransportError → List String
  | .channel cause => [cause]
  | .topology cause => [cause]
  | .publish cause => [cause]
  | .nacked => []
  | .settle cause => [cause]

end TransportError

/-- A publish that did not take place. -/
inductive PublishError where
  /-- The caller gave up while it waited for a free publisher. -/
  | cancelled
  /-- The pool has been closed. -/
  | poolClosed
  /-- There is no connection to a broker. -/
  | standalone
  | transport (cause : TransportError)
  | validation (cause : ValidationError)
  /-- The payload could not be encoded. -/
  | encoding (cause : Json.Refusal)
  deriving DecidableEq, Repr

namespace PublishError

def message : PublishError → String
  | .cancelled => "Publish error: cancelled while acquiring a publisher\n"
  | .poolClosed => "Publish error: publisher pool closed\n"
  | .standalone => "Publish error: no broker connection (standalone mode)\n"
  | .transport cause => s!"Publish error: {cause.message}\n"
  | .validation cause => s!"Publish error: {cause.message}\n"
  | .encoding cause => s!"Serialization error: {cause.text}\n"

def sources : PublishError → List String
  | .cancelled => []
  | .poolClosed => []
  | .standalone => []
  | .transport cause => cause.message :: cause.sources
  | .validation cause => [cause.message]
  | .encoding cause => [cause.text]

end PublishError

/-- Why a consumer or one of its lanes stopped. -/
inductive ConsumeError where
  | channel (cause : TransportError)
  | delivery (cause : TransportError)
  | declare (queue : String) (cause : TransportError)
  /-- A lane ended by a panic. -/
  | lane (cause : String)
  deriving DecidableEq, Repr

namespace ConsumeError

def message : ConsumeError → String
  | .channel cause => s!"Consumer channel error: {cause.message}\n"
  | .delivery cause => s!"Consumer delivery error: {cause.message}\n"
  | .declare queue cause => s!"Consumer declare error for queue '{queue}': {cause.message}\n"
  | .lane cause => s!"Consumer lane error: {cause}\n"

def sources : ConsumeError → List String
  | .channel cause => cause.message :: cause.sources
  | .delivery cause => cause.message :: cause.sources
  | .declare _ cause => cause.message :: cause.sources
  | .lane cause => [cause]

end ConsumeError

/-- A row that could not be written to the outbox. -/
inductive OutboxError where
  | backend (cause : String)
  /-- The event could not be encoded. -/
  | encoding (cause : Json.Refusal)
  deriving DecidableEq, Repr

namespace OutboxError

def message : OutboxError → String
  | .backend cause => s!"Backend error: {cause}\n"
  | .encoding cause => s!"Serde error: {cause.text}\n"

def sources : OutboxError → List String
  | .backend cause => [cause]
  | .encoding cause => [cause.text]

end OutboxError

/-- A relay cycle that ended with a failure of the outbox's storage. -/
structure RelayError where
  cause : String
  deriving DecidableEq, Repr

def RelayError.message (e : RelayError) : String :=
  s!"Outbox error: {e.cause}\n"

/-- A commit of the in-memory outbox that was told to fail. -/
inductive CommitError where
  | commitFailed
  deriving DecidableEq, Repr

def CommitError.message : CommitError → String
  | .commitFailed => "Commit failed in in-memory driver, transaction rolled back"

/-- A body that cannot be turned into the input of a handler. -/
inductive DecodeError where
  | deserialize (fault : Json.Fault)
  | validation (cause : ValidationError)
  deriving DecidableEq, Repr

/-- The text of a fault of a JSON text. -/
def Json.Fault.message : Json.Fault → String
  | .ended => "unexpected end of text"
  | .malformed => "malformed text"
  | .mismatch .missingField => "missing field"
  | .mismatch .unknownVariant => "unknown variant"
  | .mismatch .duplicateField => "duplicate field"
  | .mismatch .invalidType => "invalid type"
  | .mismatch .invalidValue => "invalid value"
  | .mismatch .invalidLength => "invalid length"
  | .mismatch .other => "value out of range"

namespace DecodeError

def message : DecodeError → String
  | .deserialize fault => s!"Decode error: {fault.message}\n"
  | .validation cause => s!"Decode error: {cause.message}\n"

end DecodeError

/-- Why a handler refused a message. -/
inductive HandlerError where
  | decode (cause : DecodeError)
  /-- The handler panicked and a layer around it caught that. -/
  | panicked (panic : String)
  /-- Any failure of the handler's own. -/
  | failed (cause : String)
  deriving DecidableEq, Repr

def HandlerError.message : HandlerError → String
  | .decode cause => cause.message
  | .panicked panic => s!"handler panicked: {panic}"
  | .failed cause => cause

end Courier
