import Courier.Consumer.Group
import Courier.Service

/-!
# The broker

A broker owns the publisher pools and the consumer group of one connection. It publishes bodies as
they are and payloads as JSON, after validation. Without a connection it is standalone: publishing
fails, declaring does nothing, and a run waits until it is stopped. Shutting it down stops the
consumers first and then closes the pools.
-/

namespace Courier

/-- A broker. -/
structure Broker where
  /-- Is there a connection? -/
  connected : Bool
  /-- Checks the payloads that are published. -/
  validator : Validator := {}
  group : Group := {}

namespace Broker

open Transport (Session)
open Transport.Session (openChannel closeAndDrop)

/-- Replace the validator, also that of the consumers registered from now on. -/
def withValidator (b : Broker) (validator : Validator) : Broker :=
  { b with validator, group := b.group.withValidator validator }

/-- Append a middleware to the group. -/
def useMiddleware (b : Broker) (middleware : Middleware) : Broker :=
  { b with group := b.group.useMiddleware middleware }

/-- Register a consumer of payloads in the group. -/
def addConsumer (b : Broker) {α : Type} [Payload α] (config : ConsumerConfig)
    (handle : α → DeliveryMeta → Handling Outcome) (middlewares : List Middleware) : Broker :=
  { b with group := b.group.addConsumer config handle middlewares }

/-- Register a consumer of bodies in the group. -/
def addRawConsumer (b : Broker) (config : ConsumerConfig)
    (handle : Bytes → DeliveryMeta → Handling Outcome) (middlewares : List Middleware) : Broker :=
  { b with group := b.group.addRawConsumer config handle middlewares }

/-- Take over the consumers of a group. -/
def merge (b : Broker) (group : Group) : Broker :=
  { b with group := b.group.merge group }

/-- Is there no connection? -/
def isStandalone (b : Broker) : Bool :=
  !b.connected

/-- Publish a body. -/
def publish (_ : Broker) (cancel : TokenId) (destination : Destination) (body : Bytes)
    (guarantee : Guarantee) : Pooling.Action (Except PublishError Unit) :=
  Pooling.publish guarantee cancel ⟨destination, body⟩

/-- Check a payload, encode it and publish it. -/
def publishJson (b : Broker) {α : Type} [Payload α] (cancel : TokenId) (destination : Destination)
    (value : α) (guarantee : Guarantee) : Pooling.Action (Except PublishError Unit) :=
  match b.validator.validate value with
  | .error cause => pure (.error (.validation cause))
  | .ok () =>
    match Payload.toJson value with
    | .error cause => pure (.error (.encoding cause))
    | .ok json => b.publish cancel destination json.encode guarantee

/-- Declare a durable exchange on a channel of its own. -/
def declareExchange (b : Broker) (name : String) (kind : ExchangeKind) :
    Session (Except TransportError Unit) := do
  if b.connected then
    match ← openChannel with
    | .error e => pure (.error e)
    | .ok channel =>
      let result ← Transport.Session.declareExchange channel name kind true
      closeAndDrop channel
      pure result
  else pure (.ok ())

/-- Stop the consumers, which look at the token `delivery`, and close the pools. -/
def shutdown (delivery : TokenId) : Service.Action Unit := do
  Program.request (Service.Request.consuming (.cancelToken delivery))
  Service.pooling Pooling.closeAll

end Broker

end Courier
