import Courier.Message
import Courier.Trace

/-!
# Handlers

A handler gets a message and is done with success, with an error, or with a panic. On its way it may
ask for time, for the system to stop, and for messages to be sent. Being a finite program it always
ends.
-/

namespace Courier

/-- What a panicking handler says: a text, or something that is no text. -/
inductive Panic where
  | text (message : String)
  | opaqueValue
  deriving DecidableEq, Repr

/-- What is reported of a panic. -/
def Panic.message : Panic → String
  | .text message => message
  | .opaqueValue => "unknown panic payload"

/-- How the handling of a message ended. -/
inductive Outcome where
  | returned (result : Except HandlerError Unit)
  | panicked (panic : Panic)

namespace Handler

/-- What a handler asks of its surroundings. -/
inductive Request where
  /-- Let time pass, in milliseconds. -/
  | sleep (millis : Nat)
  /-- What time is it, in milliseconds? -/
  | now
  /-- How often has this counter been asked before? -/
  | count (counter : Nat)
  | note (note : Note)
  /-- Cancel the runs of the service. -/
  | cancelRuns
  /-- Shut the service down. -/
  | shutdown
  /-- Send a message straight to the broker. -/
  | send (publishing : Publishing)

instance : Requests Request where
  Answer
    | .now => Nat
    | .count _ => Nat
    | .send _ => Except TransportError Unit
    | _ => Unit

end Handler

/-- Programs of handlers. -/
abbrev Handling := Program Handler.Request

namespace Handling

open Handler (Request)

def sleep (millis : Nat) : Handling Unit :=
  Program.request (Request.sleep millis)

def now : Handling Nat :=
  Program.request Request.now

def count (counter : Nat) : Handling Nat :=
  Program.request (Request.count counter)

def note (note : Note) : Handling Unit :=
  Program.request (Request.note note)

def cancelRuns : Handling Unit :=
  Program.request Request.cancelRuns

def shutdown : Handling Unit :=
  Program.request Request.shutdown

def send (publishing : Publishing) : Handling (Except TransportError Unit) :=
  Program.request (Request.send publishing)

/-- Be done with success. -/
def succeed : Handling Outcome :=
  pure (.returned (.ok ()))

/-- Be done with an error. -/
def fail (error : HandlerError) : Handling Outcome :=
  pure (.returned (.error error))

/-- Be done with a panic. -/
def panic (panic : Panic) : Handling Outcome :=
  pure (.panicked panic)

end Handling

/-- A handler of messages. -/
abbrev Handler := Message → Handling Outcome

end Courier
