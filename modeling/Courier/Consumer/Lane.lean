import Courier.Cancellation
import Courier.Consumer.Config
import Courier.Consumer.Handler
import Courier.Transport.Request

/-!
# Consumers and their lanes

A consumer declares its queue, with a queue for dead letters if it wants one, and reads the queue in
lanes. A lane has a channel of its own, takes one message at a time, has it handled and settles it,
until it is told to stop or the stream ends. It looks for the word to stop only between messages, so
a message that was taken is always settled: acknowledged if its handling succeeded, put back to the
queue after a panic, and put back or rejected after an error, as the settings say.
-/

namespace Courier

/-- A consumer: its settings, and its handler with all middlewares around it. -/
structure Consumer where
  config : ConsumerConfig
  handler : Handler

namespace Consuming

/-- What came of waiting for a message. -/
inductive Received where
  /-- The lane is to stop. -/
  | stopped
  /-- The stream has ended. -/
  | ended
  | failed (error : TransportError)
  | delivered (delivery : DeliveryId) (message : Message)

/-- What running consumers ask for. -/
inductive Request where
  /-- A request to the connection. -/
  | session (r : Transport.Request)
  /-- A request of a handler. -/
  | handler (r : Handler.Request)
  /-- Wait for a message, or for one of the tokens, which are looked at first. -/
  | receive (stream : StreamId) (stops : List TokenId)
  /-- Wait until one of the tokens is cancelled. -/
  | awaitCancelled (tokens : List TokenId)
  /-- Make a child of a token. -/
  | childToken (parent : TokenId)
  | cancelToken (token : TokenId)
  | dropToken (token : TokenId)
  /-- Start a lane of a consumer in a task of its own, which belongs to a run. -/
  | spawnLane (run : Nat) (consumer : Consumer) (stops : List TokenId)
  /-- Wait for the next lane of a run to end; nothing if all have. -/
  | join (run : Nat)

instance : Requests Request where
  Answer
    | .session r => Requests.Answer r
    | .handler r => Requests.Answer r
    | .receive .. => Received
    | .awaitCancelled _ => Unit
    | .childToken _ => TokenId
    | .cancelToken _ => Unit
    | .dropToken _ => Unit
    | .spawnLane .. => Unit
    | .join _ => Option (Except ConsumeError Unit)

/-- Programs of running consumers. -/
abbrev Action := Program Request

/-- Talk to the connection. -/
def session {α : Type} (p : Transport.Session α) : Action α :=
  p.interpret fun r => Program.ask (Request.session r) Program.done

/-- Run a handler. -/
def handling {α : Type} (p : Handling α) : Action α :=
  p.interpret fun r => Program.ask (Request.handler r) Program.done

def receive (stream : StreamId) (stops : List TokenId) : Action Received :=
  Program.request (Request.receive stream stops)

end Consuming

namespace Consumer

open Consuming (Action)
open Transport (Session)
open Transport.Session (declareExchange declareQueue bindQueue)

/-- Do the steps in order until one fails. -/
def untilError : List (Session (Except TransportError Unit)) → Session (Except TransportError Unit)
  | [] => pure (.ok ())
  | step :: rest => do
    match ← step with
    | .error e => pure (.error e)
    | .ok () => untilError rest

/-- The arguments of the consumer's queue: where its dead letters go. -/
def queueArguments (config : ConsumerConfig) : Headers :=
  match config.deadLetterExchange with
  | none => []
  | some exchange => Json.Object.ofPairs [
      ("x-dead-letter-exchange", .text exchange),
      ("x-dead-letter-routing-key", .text config.deadLetterKey)]

/-- The declarations for dead letters: their exchange, their queue, and its binding. -/
def deadLetterSteps (config : ConsumerConfig) (channel : ChannelId) :
    List (Session (Except TransportError Unit)) :=
  match config.deadLetterExchange with
  | none => []
  | some exchange => [
      declareExchange channel exchange .topic true,
      declareQueue channel { name := config.deadLetterQueue, durable := true },
      bindQueue channel config.deadLetterQueue exchange config.deadLetterKey []]

/-- The declaration of the consumer's queue. -/
def queueDeclaration (config : ConsumerConfig) : QueueDeclaration where
  name := config.queue
  durable := config.durable
  autoDelete := config.autoDelete
  exclusive := config.exclusive
  arguments := queueArguments config

/-- The binding of the consumer's queue, if it has one. -/
def bindingSteps (config : ConsumerConfig) (channel : ChannelId) :
    List (Session (Except TransportError Unit)) :=
  match config.exchange with
  | none => []
  | some exchange =>
    [bindQueue channel config.queue exchange config.routingKey config.bindingArgs]

/-- Declare the dead letters, the queue and the binding of a consumer. -/
def declare (config : ConsumerConfig) (channel : ChannelId) :
    Session (Except ConsumeError Unit) := do
  let steps := deadLetterSteps config channel ++
    [declareQueue channel (queueDeclaration config)] ++ bindingSteps config channel
  match ← untilError steps with
  | .error e => pure (.error (.declare config.queue e))
  | .ok () => pure (.ok ())

/-- How a delivery is settled. -/
inductive Settlement where
  | ack
  | nack (requeue : Bool)
  deriving DecidableEq, Repr

/-- How a delivery is settled after its handling ended so. -/
def settlement (config : ConsumerConfig) : Outcome → Settlement
  | .returned (.ok ()) => .ack
  | .returned (.error (.panicked _)) => .nack true
  | .returned (.error _) => .nack config.retryOnError
  | .panicked _ => .nack true

/-- Settle a delivery; that it may fail changes nothing. -/
def settle (delivery : DeliveryId) : Settlement → Session Unit
  | .ack => do
    let _ ← Transport.Session.ack delivery
    pure ()
  | .nack requeue => do
    let _ ← Transport.Session.nack delivery requeue
    pure ()

/-- Handle one message and settle its delivery. -/
def process (consumer : Consumer) (delivery : DeliveryId) (message : Message) : Action Unit := do
  let outcome ← Consuming.handling (consumer.handler message)
  Consuming.session (settle delivery (settlement consumer.config outcome))

end Consumer

/-- A lane that is reading. -/
structure Lane where
  consumer : Consumer
  channel : ChannelId
  stream : StreamId
  /-- The tokens that stop it, looked at in this order. -/
  stops : List TokenId

namespace Lane

open Consuming (Action)
open Transport.Session

/-- Close the channel of a lane that has ended and answer how it ended. -/
def leave {α : Type} (channel : ChannelId) (result : α) : Action α := do
  Consuming.session (closeAndDrop channel)
  pure result

/-- Open the channel of a lane and its stream. -/
def start (consumer : Consumer) (stops : List TokenId) :
    Action (Lane ⊕ Except ConsumeError Unit) := do
  match ← Consuming.session openChannel with
  | .error e => pure (.inr (.error (.channel e)))
  | .ok channel =>
    match ← Consuming.session (qos channel consumer.config.prefetch) with
    | .error e => leave channel (.inr (.error (.channel e)))
    | .ok () =>
      match ← Consuming.session (consume channel consumer.config.queue
          consumer.config.exclusive) with
      | .error e => leave channel (.inr (.error (.channel e)))
      | .ok stream => pure (.inl ⟨consumer, channel, stream, stops⟩)

/-- End the lane: let go of its stream and close its channel. -/
def finish (lane : Lane) (result : Except ConsumeError Unit) :
    Action (Lane ⊕ Except ConsumeError Unit) := do
  Consuming.session (dropStream lane.stream)
  leave lane.channel (.inr result)

/-- One turn of a lane: wait for a message and process it, or end. -/
def turn (lane : Lane) : Action (Lane ⊕ Except ConsumeError Unit) := do
  match ← Consuming.receive lane.stream lane.stops with
  | .stopped => lane.finish (.ok ())
  | .ended => lane.finish (.ok ())
  | .failed e => lane.finish (.error (.delivery e))
  | .delivered delivery message =>
    lane.consumer.process delivery message
    pure (.inl lane)

end Lane

end Courier
