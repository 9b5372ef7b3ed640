import Courier.Consumer.Payload

/-!
# Routing by event name

A router holds one route for each event name, the one registered last, and hands a message to the
route of its routing key. A message without a route goes to the default handler; with none, it
counts as handled. A route decodes with the validator that the router was made with.
-/

namespace Courier

/-- Routes by event name. -/
structure Router where
  validator : Validator
  routes : List (String × Handler) := []
  fallback : Option Handler := none

namespace Router

/-- Put a route under its name, in place of the one that is there. -/
def insertRoute (name : String) (handler : Handler) :
    List (String × Handler) → List (String × Handler)
  | [] => [(name, handler)]
  | (n, h) :: rest =>
    if n = name then (name, handler) :: rest else (n, h) :: insertRoute name handler rest

@[simp] theorem lookup_insertRoute_self (name : String) (handler : Handler)
    (routes : List (String × Handler)) :
    (insertRoute name handler routes).lookup name = some handler := by
  induction routes with
  | nil => simp [insertRoute]
  | cons r rest ih =>
    obtain ⟨n, h⟩ := r
    simp only [insertRoute]
    split
    · simp
    · rename_i hn
      simp only [List.lookup_cons, beq_false_of_ne (Ne.symm hn)]
      exact ih

/-- Route the events of a type to a handler. -/
def route (router : Router) (α : Type) [EventPayload α]
    (handle : α → DeliveryMeta → Handling Outcome) : Router :=
  { router with
    routes := insertRoute (EventPayload.eventName α)
      (Handler.typed router.validator handle) router.routes }

/-- Hand messages without a route to a handler. -/
def withDefault (router : Router) (handle : Bytes → DeliveryMeta → Handling Outcome) : Router :=
  { router with fallback := some (Handler.raw handle) }

/-- How many names have a route. -/
def size (router : Router) : Nat :=
  router.routes.length

def isEmpty (router : Router) : Bool :=
  router.routes.isEmpty

/-- Hand one message to its route. -/
def dispatch (router : Router) : Handler := fun message =>
  match router.routes.lookup message.info.routingKey with
  | some handler => handler message
  | none =>
    match router.fallback with
    | some handler => handler message
    | none => Handling.succeed

end Router

end Courier
