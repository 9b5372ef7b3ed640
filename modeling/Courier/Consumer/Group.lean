import Courier.Consumer.Lane
import Courier.Consumer.Middleware
import Courier.Consumer.Payload

/-!
# Consumer groups

A group is a list of consumers that run together. Registering a consumer puts the middlewares that
the group has at that time, and then the consumer's own, around its handler.

A run declares what all consumers need on one channel, starts every lane in a task of its own, and
then waits for the lanes to end. The first lane that ends with an error stops the others, and its
error is the result of the run. Without a connection a run only waits to be stopped.
-/

namespace Courier

/-- A group of consumers. -/
structure Group where
  validator : Validator := {}
  middlewares : List Middleware := []
  consumers : List Consumer := []

namespace Group

/-- Append a middleware; it concerns the consumers registered from now on. -/
def useMiddleware (g : Group) (middleware : Middleware) : Group :=
  { g with middlewares := g.middlewares ++ [middleware] }

/-- Replace the validator; it concerns the consumers registered from now on. -/
def withValidator (g : Group) (validator : Validator) : Group :=
  { g with validator }

/-- Register a consumer of messages. -/
def register (g : Group) (config : ConsumerConfig) (handler : Handler)
    (middlewares : List Middleware) : Group :=
  { g with
    consumers := g.consumers ++
      [⟨config, Middleware.chain (g.middlewares ++ middlewares) handler⟩] }

/-- Register a consumer of payloads. -/
def addConsumer (g : Group) {α : Type} [Payload α] (config : ConsumerConfig)
    (handle : α → DeliveryMeta → Handling Outcome) (middlewares : List Middleware) : Group :=
  g.register config (Handler.typed g.validator handle) middlewares

/-- Register a consumer of bodies. -/
def addRawConsumer (g : Group) (config : ConsumerConfig)
    (handle : Bytes → DeliveryMeta → Handling Outcome) (middlewares : List Middleware) : Group :=
  g.register config (Handler.raw handle) middlewares

/-- Take over the consumers of another group. -/
def merge (g other : Group) : Group :=
  { g with consumers := g.consumers ++ other.consumers }

/-- How many consumers there are. -/
def size (g : Group) : Nat :=
  g.consumers.length

def isEmpty (g : Group) : Bool :=
  g.consumers.isEmpty

open Consuming (Action)
open Transport (Session)
open Transport.Session

/-- Declare what consumers need, in order, until one fails. -/
def declareEach (channel : ChannelId) : List Consumer → Session (Except ConsumeError Unit)
  | [] => pure (.ok ())
  | consumer :: rest => do
    match ← Consumer.declare consumer.config channel with
    | .error e => pure (.error e)
    | .ok () => declareEach channel rest

/-- Declare what all consumers need, on a channel that is closed then. -/
def declare (g : Group) : Session (Except ConsumeError Unit) := do
  match ← openChannel with
  | .error e => pure (.error (.channel e))
  | .ok channel =>
    let result ← declareEach channel g.consumers
    closeAndDrop channel
    pure result

/-- Start `n` lanes of a consumer. -/
def spawnLanes (run : Nat) (consumer : Consumer) (stops : List TokenId) : Nat → Action Unit
  | 0 => pure ()
  | n + 1 => do
    Program.request (Consuming.Request.spawnLane run consumer stops)
    spawnLanes run consumer stops n

/-- Start all lanes of the consumers, in order. -/
def spawnAll (run : Nat) (stops : List TokenId) : List Consumer → Action Unit
  | [] => pure ()
  | consumer :: rest => do
    spawnLanes run consumer stops consumer.config.lanes
    spawnAll run stops rest

/-- A run that waits for its lanes. -/
structure Running where
  run : Nat
  /-- The token that stops the lanes of this run. -/
  lanes : TokenId
  firstError : Option ConsumeError := none

/-- How far a run has come: it goes on, or it has ended. -/
abbrev Progress := Running ⊕ Except ConsumeError Unit

/-- Begin a run that is stopped by cancelling `cancel` or `delivery`. -/
def start (g : Group) (connected : Bool) (run : Nat) (cancel delivery : TokenId) :
    Action Progress := do
  if connected then
    match ← Consuming.session g.declare with
    | .error e => pure (.inr (.error e))
    | .ok () =>
      let lanes : TokenId ← Program.request (Consuming.Request.childToken cancel)
      spawnAll run [lanes, delivery] g.consumers
      pure (.inl { run, lanes })
  else
    Program.request (Consuming.Request.awaitCancelled [cancel, delivery])
    pure (.inr (.ok ()))

/-- The result of a run whose lanes have all ended. -/
def Running.result (r : Running) : Except ConsumeError Unit :=
  match r.firstError with
  | none => .ok ()
  | some e => .error e

/-- One turn of a run: wait for a lane to end; after the first error stop the other lanes. -/
def Running.turn (r : Running) : Action Progress := do
  let joined : Option (Except ConsumeError Unit) ←
    Program.request (Consuming.Request.join r.run)
  match joined with
  | none =>
    Program.request (Consuming.Request.dropToken r.lanes)
    pure (.inr r.result)
  | some (.ok ()) => pure (.inl r)
  | some (.error e) =>
    match r.firstError with
    | some _ => pure (.inl r)
    | none =>
      Program.request (Consuming.Request.cancelToken r.lanes)
      pure (.inl { r with firstError := some e })

end Group

end Courier
