import Courier.Consumer.Group
import Courier.Proofs.Consumer.Routing
import Courier.Simulation.Payloads

/-!
# Typed consumers and routed ones

A consumer of payloads and a consumer of bodies behind a router with a route for these payloads do
the same with messages under the name of the route (`addConsumer_agrees_addRawConsumer`). Their
middlewares may come between: one that shows the inner handler another routing key makes the router
look elsewhere, so they have to keep to the key (`Middleware.Keeps`).

What is inside differs. A typed consumer calls its handler only when it is waited for, a route as
soon as it is called, so a handler that panics at once does so at another time. `Service` tells a
call from the waiting for it, and `handler_layered` says that a middleware which calls and waits in
one sees no difference; one that does not may (`Service.lenient`). `Handler`, as lanes see it, is
always both in one.
-/

namespace Courier

/-! ## Keeping to a routing key -/

/-- The handlers do the same with all messages under a routing key. -/
def Handler.AgreeOn (key : String) (first second : Handler) : Prop :=
  ∀ message, message.info.routingKey = key → first message = second message

namespace Middleware

/-- What the middleware does with messages under a routing key depends only on what the inner handler
does with messages under this key. -/
def Keeps (key : String) (middleware : Middleware) : Prop :=
  ∀ first second, Handler.AgreeOn key first second →
    Handler.AgreeOn key (middleware first) (middleware second)

variable {key : String}

/-- A middleware that hands each message on as it is, or not at all. -/
theorem keeps_of_unchanged {middleware : Middleware}
    (h : ∀ inner message, middleware inner message = middleware (fun _ => inner message) message) :
    Keeps key middleware := fun first second hagree message hkey => by
  rw [h first, h second, hagree message hkey]

/-- All middlewares of the library but `retag` keep to every key. -/
theorem keeps_of_mem {name cause text : String} {counter n : Nat} {middleware : Middleware}
    (h : middleware ∈ [recover, logging, record name, swallow, reject cause, panicking text,
      cancelAt counter n]) : Keeps key middleware := by
  refine keeps_of_unchanged fun inner message => ?_
  simp only [List.mem_cons, List.not_mem_nil, or_false] at h
  rcases h with rfl | rfl | rfl | rfl | rfl | rfl | rfl <;> rfl

theorem agreeOn_chain {middlewares : List Middleware} {first second : Handler}
    (h : ∀ middleware ∈ middlewares, Keeps key middleware)
    (hagree : Handler.AgreeOn key first second) :
    Handler.AgreeOn key (chain middlewares first) (chain middlewares second) := by
  induction middlewares with
  | nil => exact hagree
  | cons middleware rest ih =>
    obtain ⟨hfirst, hrest⟩ := List.forall_mem_cons.mp h
    exact hfirst _ _ (ih hrest)

end Middleware

/-! ## Calling and waiting -/

/-- A handler as middlewares may see it: a call panics at once, or gives what is to be waited for. -/
abbrev Service := Message → Except Panic (Handling Outcome)

/-- Call and wait. -/
def Handling.awaited : Except Panic (Handling Outcome) → Handling Outcome
  | .error panic => Handling.panic panic
  | .ok rest => rest

namespace Service

variable {α : Type} [Payload α] (validator : Validator)
  (handle : α → DeliveryMeta → Except Panic (Handling Outcome))

/-- What a lane sees of it. -/
def handler (service : Service) : Handler := fun message =>
  Handling.awaited (service message)

/-- The service of a typed consumer, which calls its handler when it is waited for. -/
def typed : Service := fun message =>
  match decode validator message.body with
  | .error cause => .ok (Handling.fail (.decode cause))
  | .ok value => .ok (Handling.awaited (handle value message.info))

/-- The service of a route, which calls its handler when it is called. -/
def route : Service := fun message =>
  match decode validator message.body with
  | .error cause => .ok (Handling.fail (.decode cause))
  | .ok value => handle value message.info

theorem handler_typed :
    (typed validator handle).handler =
      Handler.typed validator fun value info => Handling.awaited (handle value info) := by
  funext message
  simp only [handler, typed, Handler.typed]
  cases decode (α := α) validator message.body <;> rfl

theorem handler_route :
    (route validator handle).handler =
      Handler.typed validator fun value info => Handling.awaited (handle value info) := by
  funext message
  simp only [handler, route, Handler.typed]
  cases decode (α := α) validator message.body <;> rfl

/-- Services with middlewares around them that call and wait in one. -/
def layered (middlewares : List Middleware) (service : Service) : Service :=
  middlewares.foldr (fun middleware inner message => .ok (middleware inner.handler message)) service

theorem handler_layered (middlewares : List Middleware) (service : Service) :
    (layered middlewares service).handler = Middleware.chain middlewares service.handler := by
  induction middlewares with
  | nil => rfl
  | cons middleware rest ih =>
    change middleware (layered rest service).handler = _
    rw [ih]
    rfl

/-- Such middlewares do not see when the handler is called. -/
theorem layered_typed_eq_layered_route (middlewares : List Middleware) :
    (layered middlewares (typed validator handle)).handler =
      (layered middlewares (route validator handle)).handler := by
  rw [handler_layered, handler_layered, handler_typed, handler_route]

/-- Takes panics for successes, but only those that happen while it waits. -/
def lenient (inner : Service) : Service := fun message => do
  let rest ← inner message
  pure (Middleware.chain [.swallow, .recover] (fun _ => rest) message)

end Service

/-! ## Typed and routed -/

section Agreement

variable {α : Type} [EventPayload α]

/-- The consumers do the same with all messages under a routing key. -/
structure Consumer.Agree (key : String) (first second : Consumer) : Prop where
  config_eq : first.config = second.config
  /-- They call what is inside with the same and as often, and come to the same result. -/
  handler_eq : Handler.AgreeOn key first.handler second.handler
  /-- They settle deliveries in the same way. -/
  process_eq : ∀ delivery message, message.info.routingKey = key →
    first.process delivery message = second.process delivery message

theorem Consumer.agree_of_agreeOn {key : String} (config : ConsumerConfig) {first second : Handler}
    (h : Handler.AgreeOn key first second) : Agree key ⟨config, first⟩ ⟨config, second⟩ where
  config_eq := rfl
  handler_eq := h
  process_eq delivery message hkey := by simp only [process, h message hkey]

theorem Consumer.process_of_done {consumer : Consumer} {delivery : DeliveryId} {message : Message}
    {outcome : Outcome} (h : consumer.handler message = .done outcome) :
    consumer.process delivery message =
      Consuming.session (settle delivery (settlement consumer.config outcome)) := by
  simp only [process, h]
  rfl

/-- The handler of a router does with messages of a type what its last route for them does. -/
theorem agreeOn_dispatch {validator : Validator} {rs : List Registration}
    {handle : α → DeliveryMeta → Handling Outcome}
    (h : Registration.last rs (some (EventPayload.eventName α)) = some (.route α handle)) :
    Handler.AgreeOn (EventPayload.eventName α) (Handler.typed validator handle)
      (Handler.raw fun body info => (Router.registered validator rs).dispatch ⟨info, body⟩) :=
  fun _ hkey =>
    (Router.dispatch_routed (Router.reflects_registered validator rs) (hkey ▸ h)).symm

/-- A consumer of payloads agrees with a consumer behind a router whose last route under the name of
the payloads has the same handler, whatever else is registered there. -/
theorem addConsumer_agrees_addRawConsumer (g : Group) (config : ConsumerConfig)
    (handle : α → DeliveryMeta → Handling Outcome) (middlewares : List Middleware)
    (rs : List Registration)
    (hlast : Registration.last rs (some (EventPayload.eventName α)) = some (.route α handle))
    (hkeep : ∀ middleware ∈ g.middlewares ++ middlewares,
      middleware.Keeps (EventPayload.eventName α)) :
    ∃ typed routed : Consumer,
      (g.addConsumer config handle middlewares).consumers = g.consumers ++ [typed] ∧
      (g.addRawConsumer config
        (fun body info => (Router.registered g.validator rs).dispatch ⟨info, body⟩)
        middlewares).consumers = g.consumers ++ [routed] ∧
      Consumer.Agree (EventPayload.eventName α) typed routed :=
  ⟨_, _, rfl, rfl, Consumer.agree_of_agreeOn config
    (Middleware.agreeOn_chain hkeep (agreeOn_dispatch hlast))⟩

end Agreement

section Jobs

open Simulation

def refuse (_ : Job) (_ : DeliveryMeta) : Handling Outcome :=
  Handling.fail (.failed "refused")

def oneJob : Message :=
  ⟨{ routingKey := "job.queued" }, Bytes.ofText "\x7b\"id\": 1\x7d"⟩

/-- It holds of a router with another route and a default, and with middlewares of a group and of
the consumer. -/
theorem addConsumer_agrees_addRawConsumer_jobs :
    let rs : List Registration := [.route Job refuse, .fallback fun _ _ => Handling.succeed,
      .route UserCreated fun _ _ => Handling.succeed]
    let g : Group := { middlewares := [Middleware.recover] }
    ∃ typed routed : Consumer,
      (g.addConsumer { queue := "jobs" } refuse [Middleware.record "seen"]).consumers = [typed] ∧
      (g.addRawConsumer { queue := "jobs" }
        (fun body info => (Router.registered {} rs).dispatch ⟨info, body⟩)
        [Middleware.record "seen"]).consumers = [routed] ∧
      Consumer.Agree "job.queued" typed routed := by
  intro rs g
  refine addConsumer_agrees_addRawConsumer g { queue := "jobs" } refuse [Middleware.record "seen"]
    rs rfl fun middleware hmem => Middleware.keeps_of_unchanged ?_
  obtain rfl | rfl : middleware = Middleware.recover ∨ middleware = Middleware.record "seen" := by
    simpa [g] using hmem
  · exact fun _ _ => rfl
  · exact fun _ _ => rfl

theorem oneJob_decodes : ∃ job : Job, decode {} oneJob.body = .ok job := by
  have hok : (decode (α := Job) {} oneJob.body).isOk = true := by decide +kernel
  cases hdecode : decode (α := Job) {} oneJob.body with
  | ok job => exact ⟨job, rfl⟩
  | error cause =>
    rw [hdecode] at hok
    cases hok

/-- Panics as soon as it is called. -/
def panicAtOnce (_ : Job) (_ : DeliveryMeta) : Except Panic (Handling Outcome) :=
  .error (.text "no")

/-- It does not hold of all middlewares: one that shows another routing key makes a routed consumer
accept what a typed one refuses, and one that tells a call from the waiting for it does so where the
handler panics. -/
theorem exists_disagreement :
    (∃ typed routed : Consumer,
      (({} : Group).addConsumer { queue := "jobs" } refuse
        [Middleware.retag "elsewhere"]).consumers = [typed] ∧
      (({} : Group).addRawConsumer { queue := "jobs" }
        (fun body info => (Router.registered {} [.route Job refuse]).dispatch ⟨info, body⟩)
        [Middleware.retag "elsewhere"]).consumers = [routed] ∧
      oneJob.info.routingKey = EventPayload.eventName Job ∧
      typed.handler oneJob = Handling.fail (.failed "refused") ∧
      routed.handler oneJob = Handling.succeed ∧
      typed.process 0 oneJob ≠ routed.process 0 oneJob) ∧
    (Service.lenient (Service.typed {} panicAtOnce)).handler oneJob = Handling.succeed ∧
      (Service.lenient (Service.route {} panicAtOnce)).handler oneJob =
        Handling.panic (.text "no") := by
  obtain ⟨job, hjob⟩ := oneJob_decodes
  have htyped : Middleware.retag "elsewhere" (Handler.typed {} refuse) oneJob =
      Handling.fail (.failed "refused") := by
    simp only [Middleware.retag, Handler.typed, hjob, refuse]
  have hrouted : Middleware.retag "elsewhere" (Handler.raw fun body info =>
      (Router.registered {} [.route Job refuse]).dispatch ⟨info, body⟩) oneJob =
      Handling.succeed := rfl
  refine ⟨⟨_, _, rfl, rfl, rfl, htyped, hrouted, fun heq => ?_⟩, ?_, ?_⟩
  · -- The one is put back or rejected, the other is acknowledged.
    rw [Consumer.process_of_done htyped, Consumer.process_of_done hrouted] at heq
    cases heq
  · simp only [Service.handler, Service.lenient, Service.typed, hjob]
    rfl
  · simp only [Service.handler, Service.lenient, Service.route, hjob]
    rfl

end Jobs

end Courier
