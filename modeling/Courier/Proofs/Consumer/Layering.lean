import Courier.Consumer.Middleware

/-!
# Middlewares around a handler

In a chain every middleware is around those behind it and the handler, and within those before it
(`chain_middle`). What that means for a message shows with middlewares that do something on its way in
and something on its way out (`Around`): they see a message in the order of the chain, then comes the
handler, and then they see its outcome in the reverse order (`chain_around`).
-/

namespace Courier

namespace Middleware

theorem chain_append (first second : List Middleware) (handler : Handler) :
    chain (first ++ second) handler = chain first (chain second handler) :=
  List.foldr_append

theorem chain_middle (first second : List Middleware) (middleware : Middleware) (handler : Handler) :
    chain (first ++ middleware :: second) handler =
      chain first (middleware (chain second handler)) :=
  chain_append first (middleware :: second) handler

end Middleware

/-- What a middleware does to a message on its way in, and to the outcome on its way out. -/
structure Around where
  entering : Message → Handling Message
  leaving : Outcome → Handling Outcome

namespace Around

def middleware (layer : Around) : Middleware := fun inner message => do
  let message ← layer.entering message
  let outcome ← inner message
  layer.leaving outcome

/-- What several of them do to a message. -/
def enter (layers : List Around) (message : Message) : Handling Message :=
  layers.foldlM (fun message layer => layer.entering message) message

/-- What several of them do to an outcome. -/
def leave (layers : List Around) (outcome : Outcome) : Handling Outcome :=
  layers.foldlM (fun outcome layer => layer.leaving outcome) outcome

theorem enter_cons (layer : Around) (rest : List Around) (message : Message) :
    enter (layer :: rest) message = (layer.entering message).bind (enter rest) :=
  List.foldlM_cons

theorem leave_concat (rest : List Around) (layer : Around) (outcome : Outcome) :
    leave (rest ++ [layer]) outcome = (leave rest outcome).bind layer.leaving := by
  rw [leave, List.foldlM_append]
  exact congrArg (leave rest outcome).bind (funext fun outcome => List.foldlM_cons.trans
    (Program.bind_done _))

/-- A message goes in through all of them in their order, and its outcome out in the reverse order. -/
theorem chain_around (layers : List Around) (handler : Handler) (message : Message) :
    Middleware.chain (layers.map middleware) handler message =
      (enter layers message).bind fun message =>
        (handler message).bind (leave layers.reverse) := by
  induction layers generalizing message with
  | nil => exact (Program.bind_done (handler message)).symm
  | cons layer rest ih =>
    calc Middleware.chain ((layer :: rest).map middleware) handler message
        = (layer.entering message).bind fun message =>
            (Middleware.chain (rest.map middleware) handler message).bind layer.leaving := rfl
      _ = (layer.entering message).bind fun message =>
            (enter rest message).bind fun message =>
              (handler message).bind fun outcome =>
                (leave rest.reverse outcome).bind layer.leaving := by
          simp only [ih, Program.bind_assoc]
      _ = (enter (layer :: rest) message).bind fun message =>
            (handler message).bind (leave (layer :: rest).reverse) := by
          rw [enter_cons, Program.bind_assoc, List.reverse_cons,
            funext (leave_concat rest.reverse layer)]

/-- One that leaves outcomes alone. -/
theorem middleware_entering (entering : Message → Handling Message) :
    middleware ⟨entering, .done⟩ = fun inner message => (entering message).bind inner :=
  funext fun inner => funext fun message => congrArg (entering message).bind
    (funext fun message => Program.bind_done (inner message))

/-- The middlewares of the library that hand messages on are around what is inside. -/
theorem exists_around {name routingKey : String} {counter n : Nat} {m : Middleware}
    (h : m ∈ [Middleware.recover, Middleware.logging, Middleware.record name, Middleware.swallow,
      Middleware.retag routingKey, Middleware.cancelAt counter n]) :
    ∃ layer : Around, layer.middleware = m := by
  simp only [List.mem_cons, List.not_mem_nil, or_false] at h
  rcases h with rfl | rfl | rfl | rfl | rfl | rfl
  · exact ⟨⟨.done, _⟩, rfl⟩
  · exact ⟨⟨.done, .done⟩, middleware_entering _⟩
  · exact ⟨⟨fun message => do
      Handling.note (.before name message.info.routingKey)
      pure message, _⟩, rfl⟩
  · exact ⟨⟨.done, _⟩, rfl⟩
  · exact ⟨⟨fun message => pure { message with info := { message.info with routingKey } }, .done⟩,
      middleware_entering _⟩
  · refine ⟨⟨fun message => do
      let seen ← Handling.count counter
      if seen + 1 = n then Handling.cancelRuns
      pure message, .done⟩, (middleware_entering _).trans ?_⟩
    funext inner message
    refine congrArg (Program.ask (Handler.Request.count counter)) (funext fun seen => ?_)
    simp only [Program.done_bind]
    split <;> rfl

end Around

end Courier
