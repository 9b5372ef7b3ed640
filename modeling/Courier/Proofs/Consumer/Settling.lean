import Courier.Consumer.Lane
import Courier.Consumer.Middleware
import Courier.Consumer.Payload
import Courier.Proofs.Dialogue

/-!
# The settlement of a delivery

A lane handles a message and then settles its delivery, and how it settles it depends only on the
outcome of the handler (`Due`). Layers that recover from panics or write to the log add no request
of their own: a chain of them is the handler with another name for its outcome (`chain_layers`), and
a panic is settled alike under both of its names (`settlement_through`). So a consumer processes a
delivery with them as it does without, and settles it once (`process_settles`).
-/

namespace Courier

namespace Handler

variable {α : Type}

/-- The handler of messages that decodes each body by code that may panic, as the reader or the
rules of a payload type may. -/
def decoding (decode : Bytes → Except Panic (Except DecodeError α))
    (handle : α → DeliveryMeta → Handling Outcome) : Handler := fun message =>
  match decode message.body with
  | .error panic => Handling.panic panic
  | .ok (.error cause) => Handling.fail (.decode cause)
  | .ok (.ok value) => handle value message.info

/-- A payload type of the library does not panic. -/
theorem typed_eq_decoding [Payload α] (validator : Validator)
    (handle : α → DeliveryMeta → Handling Outcome) :
    typed validator handle = decoding (fun body => .ok (decode validator body)) handle := by
  funext message
  simp only [typed, decoding]
  cases decode (α := α) validator message.body <;> rfl

end Handler

namespace Consumer

/-! ## Layers -/

/-- A layer that every service may put around its handlers. -/
inductive Layer where
  | recover
  | logging

def Layer.middleware : Layer → Middleware
  | .recover => Middleware.recover
  | .logging => Middleware.logging

/-- What the outcome of a handler is on the outside of a layer. -/
def Layer.through : Layer → Outcome → Outcome
  | .recover, .panicked panic => .returned (.error (.panicked panic.message))
  | _, outcome => outcome

theorem Layer.middleware_eq (layer : Layer) (handler : Handler) (message : Message) :
    layer.middleware handler message =
      (handler message).bind fun outcome => .done (layer.through outcome) := by
  cases layer with
  | recover =>
    refine congrArg (handler message).bind (funext fun outcome => ?_)
    cases outcome <;> rfl
  | logging =>
    have hthrough : (fun outcome => .done (Layer.logging.through outcome)) =
        (Program.done : Outcome → Handling Outcome) :=
      funext fun outcome => by cases outcome <;> rfl
    rw [hthrough, Program.bind_done]
    rfl

/-- Layers ask for nothing, and rename the outcome one after another, the innermost first. -/
theorem chain_layers (layers : List Layer) (handler : Handler) (message : Message) :
    Middleware.chain (layers.map Layer.middleware) handler message =
      (handler message).bind fun outcome => .done (layers.foldr Layer.through outcome) := by
  induction layers with
  | nil => exact (Program.bind_done _).symm
  | cons layer rest ih =>
    calc Middleware.chain ((layer :: rest).map Layer.middleware) handler message
        = (Middleware.chain (rest.map Layer.middleware) handler message).bind fun outcome =>
            .done (layer.through outcome) := layer.middleware_eq _ message
      _ = (handler message).bind fun outcome =>
            .done (layer.through (rest.foldr Layer.through outcome)) := by
          rw [ih, Program.bind_assoc]
          rfl

/-! ## The settlement -/

/-- Caught or not, a panic is settled in the same way. -/
theorem settlement_through (config : ConsumerConfig) (layer : Layer) (outcome : Outcome) :
    settlement config (layer.through outcome) = settlement config outcome := by
  cases layer with
  | recover => cases outcome <;> rfl
  | logging => cases outcome <;> rfl

theorem settlement_layers (config : ConsumerConfig) (layers : List Layer) (outcome : Outcome) :
    settlement config (layers.foldr Layer.through outcome) = settlement config outcome := by
  induction layers with
  | nil => rfl
  | cons layer rest ih => exact (settlement_through config layer _).trans ih

/-- The call that is due on the acker of a delivery after its handler ended so. -/
inductive Due (config : ConsumerConfig) (delivery : DeliveryId) :
    Outcome → Transport.Request → Prop where
  | succeeded : Due config delivery (.returned (.ok ())) (.ack delivery)
  /-- The handler returned an error that is no caught panic. -/
  | failed {error : HandlerError} (h : ∀ panic, error ≠ .panicked panic) :
      Due config delivery (.returned (.error error)) (.nack delivery config.retryOnError)
  | caught (panic : String) :
      Due config delivery (.returned (.error (.panicked panic))) (.nack delivery true)
  | panicked (panic : Panic) : Due config delivery (.panicked panic) (.nack delivery true)

variable {config : ConsumerConfig} {delivery : DeliveryId} {outcome : Outcome}
  {events : List (Program.Event Consuming.Request)}

/-- The call on the acker of a delivery that settles it. -/
def Settlement.call (delivery : DeliveryId) : Settlement → Transport.Request
  | .ack => .ack delivery
  | .nack requeue => .nack delivery requeue

/-- A lane settles as is due. -/
theorem due_iff {call : Transport.Request} :
    Due config delivery outcome call ↔ call = (settlement config outcome).call delivery := by
  constructor
  · intro hdue
    cases hdue with
    | @failed error h =>
      cases error with
      | panicked panic => exact absurd rfl (h panic)
      | _ => rfl
    | _ => rfl
  · rintro rfl
    match outcome with
    | .returned (.ok ()) => exact .succeeded
    | .returned (.error (.panicked panic)) => exact .caught panic
    | .returned (.error (.decode cause)) => exact .failed nofun
    | .returned (.error (.failed cause)) => exact .failed nofun
    | .panicked panic => exact .panicked panic

/-- To settle is one call, whatever it is answered. -/
theorem told_settle {settlement : Settlement} {result : Unit} :
    (Consuming.session (settle delivery settlement)).Told events result ↔
      ∃ reply, events = [⟨.session (settlement.call delivery), reply⟩] := by
  constructor
  · intro h
    cases settlement with
    | _ =>
      obtain ⟨reply, _, rfl, rfl, -⟩ := h
      exact ⟨reply, rfl⟩
  · rintro ⟨reply, rfl⟩
    cases settlement with
    | _ => exact ⟨reply, [], rfl, rfl, rfl⟩

/-- The request of a handler as one of its lane. -/
def asked (event : Program.Event Handler.Request) : Program.Event Consuming.Request :=
  ⟨.handler event.request, event.answer⟩

/-- A lane passes on what a handler asks for, and nothing else. -/
theorem told_handling {α : Type} {p : Handling α} {result : α} :
    (Consuming.handling p).Told events result ↔
      ∃ handled, p.Told handled result ∧ events = handled.map asked := by
  induction p generalizing events with
  | done a =>
    constructor
    · rintro ⟨rfl, rfl⟩
      exact ⟨[], ⟨rfl, rfl⟩, rfl⟩
    · rintro ⟨_, ⟨rfl, rfl⟩, rfl⟩
      exact ⟨rfl, rfl⟩
  | ask r next ih =>
    constructor
    · rintro ⟨answer, _, rfl, h⟩
      obtain ⟨handled, hnext, rfl⟩ := (ih answer).mp h
      exact ⟨⟨r, answer⟩ :: handled, ⟨answer, handled, rfl, hnext⟩, rfl⟩
    · rintro ⟨_, ⟨answer, handled, rfl, hnext⟩, rfl⟩
      exact ⟨answer, _, rfl, (ih answer).mpr ⟨handled, hnext, rfl⟩⟩

/-- Handling comes first, then the one call that is due. -/
theorem told_process {handler : Handler} {message : Message} {result : Unit} :
    (process ⟨config, handler⟩ delivery message).Told events result ↔
      ∃ handled outcome call reply, (handler message).Told handled outcome ∧
        Due config delivery outcome call ∧
        events = handled.map asked ++ [⟨.session call, reply⟩] := by
  constructor
  · intro h
    obtain ⟨outcome, _, _, rfl, hhandled, hsettled⟩ := Program.told_bind.mp h
    obtain ⟨handled, htold, rfl⟩ := told_handling.mp hhandled
    obtain ⟨reply, rfl⟩ := told_settle.mp hsettled
    exact ⟨handled, outcome, _, reply, htold, due_iff.mpr rfl, rfl⟩
  · rintro ⟨handled, outcome, call, reply, htold, hdue, rfl⟩
    obtain rfl := due_iff.mp hdue
    exact Program.told_bind.mpr ⟨outcome, _, _, rfl, told_handling.mpr ⟨handled, htold, rfl⟩,
      told_settle.mpr ⟨reply, rfl⟩⟩

/-- A consumer with layers around its handler processes a delivery as it does without them. -/
theorem process_layers (layers : List Layer) (handler : Handler) (message : Message) :
    process ⟨config, Middleware.chain (layers.map Layer.middleware) handler⟩ delivery message =
      process ⟨config, handler⟩ delivery message := by
  simp only [process, chain_layers, Consuming.handling, Program.bind_eq, Program.interpret_bind,
    Program.interpret, Program.bind_assoc, Program.done_bind, settlement_layers]

/-- A body that is not decoded does not reach the handler of payloads: it is put back if decoding it
panicked, and settled as the settings say if it was refused. -/
theorem process_decoding {α : Type} (layers : List Layer)
    {decode : Bytes → Except Panic (Except DecodeError α)}
    (handle : α → DeliveryMeta → Handling Outcome) {message : Message}
    (h : ∀ value, decode message.body ≠ .ok (.ok value)) :
    process ⟨config, Middleware.chain (layers.map Layer.middleware) (.decoding decode handle)⟩
        delivery message =
      Consuming.session (settle delivery (.nack (match decode message.body with
        | .error _ => true
        | .ok _ => config.retryOnError))) := by
  rw [process_layers]
  simp only [process, Handler.decoding]
  match hbody : decode message.body with
  | .error panic => rfl
  | .ok (.error cause) => rfl
  | .ok (.ok value) => exact absurd hbody (h value)

/-- For every consumer and every handler, be it of bodies, of payloads, or of a router, be it done
with success, with an error or with a panic, and with layers around it in any number and order: the
delivery is processed as it is with the handler alone. The handler comes first; then there is one
call on the acker, the one that is due after the outcome of the handler alone; and whatever that
call is answered, nothing else is asked and the lane goes on. -/
theorem process_settles (config : ConsumerConfig) (layers : List Layer) (handler : Handler)
    (delivery : DeliveryId) (message : Message) :
    process ⟨config, Middleware.chain (layers.map Layer.middleware) handler⟩ delivery message =
      process ⟨config, handler⟩ delivery message ∧
    ∀ events result,
      (process ⟨config, Middleware.chain (layers.map Layer.middleware) handler⟩ delivery
        message).Told events result ↔
      ∃ handled outcome call reply, (handler message).Told handled outcome ∧
        Due config delivery outcome call ∧
        events = handled.map asked ++ [⟨.session call, reply⟩] :=
  ⟨process_layers layers handler message, fun _ _ => by
    rw [process_layers]
    exact told_process⟩

end Consumer

end Courier
