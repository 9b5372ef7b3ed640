import Courier.Consumer.Handler

/-!
# Middlewares

A middleware wraps a handler into another one. In a chain the first middleware is the outermost: it
sees a message first and its result last.
-/

namespace Courier

/-- Wraps a handler. -/
abbrev Middleware := Handler → Handler

namespace Middleware

/-- Put the middlewares around a handler, the first one outermost. -/
def chain (middlewares : List Middleware) (handler : Handler) : Handler :=
  middlewares.foldr (fun middleware inner => middleware inner) handler

/-- Turns panics of the inner handler into errors. -/
def recover : Middleware := fun inner message => do
  match ← inner message with
  | .panicked panic => Handling.fail (.panicked panic.message)
  | .returned result => pure (.returned result)

/-- Reports results to the log of the service, which nobody here sees, and changes nothing. -/
def logging : Middleware := fun inner message => do
  let outcome ← inner message
  pure outcome

/-- Notes every message on its way in and its result on the way out; a panic passes unnoted. -/
def record (name : String) : Middleware := fun inner message => do
  Handling.note (.before name message.info.routingKey)
  match ← inner message with
  | .panicked panic => Handling.panic panic
  | .returned result =>
    Handling.note (.after name result)
    pure (.returned result)

/-- Turns errors into success. -/
def swallow : Middleware := fun inner message => do
  match ← inner message with
  | .panicked panic => Handling.panic panic
  | .returned _ => Handling.succeed

/-- Refuses every message. -/
def reject (cause : String) : Middleware := fun _ _ =>
  Handling.fail (.failed cause)

/-- Panics at every message. -/
def panicking (text : String) : Middleware := fun _ _ =>
  Handling.panic (.text text)

/-- Shows the inner handler another routing key. -/
def retag (routingKey : String) : Middleware := fun inner message =>
  inner { message with info := { message.info with routingKey } }

/-- Cancels the runs of the service at the `n`-th message that its counter sees. -/
def cancelAt (counter n : Nat) : Middleware := fun inner message => do
  let seen ← Handling.count counter
  if seen + 1 = n then Handling.cancelRuns
  inner message

end Middleware

end Courier
