import Courier.Broker
import Courier.Consumer.Router
import Courier.Simulation.Payloads

/-!
# Scripted handlers

A scripted handler does at each call what its script says for that call. A setup is a list of
registrations from which a broker's consumers are made, with their middlewares, typed handlers and
routers. Each handler, and each middleware that counts, has a counter of its own.
-/

namespace Courier.Simulation

/-- How a scripted call ends. -/
inductive Out where
  | ok
  | err (message : String)
  | panic (message : String)
  /-- A panic with a fixed text. -/
  | panicStatic
  /-- A panic with something that is no text. -/
  | panicAny
  /-- A panic before anything else is done. -/
  | panicSync (message : String)
  deriving DecidableEq, Repr

/-- What a scripted handler does at one call, in this order. -/
structure Deed where
  /-- Milliseconds to sleep. -/
  sleep : Nat := 0
  /-- Cancel the runs of the service. -/
  cancel : Bool := false
  /-- Shut the service down. -/
  shutdown : Bool := false
  publish : Option Publishing := none
  out : Out := .ok

/-- A script: the deeds of the first calls, and that of all later ones. -/
structure Script where
  deeds : List Deed := []
  otherwise : Deed := {}

namespace Script

/-- What is done at a call. -/
def deed (script : Script) (call : Nat) : Deed :=
  script.deeds[call]?.getD script.otherwise

/-- The script without its effects on the service. -/
def inert (script : Script) : Script :=
  let still (deed : Deed) : Deed := { sleep := deed.sleep, out := deed.out }
  { deeds := script.deeds.map still, otherwise := still script.otherwise }

/-- How a deed ends, its sleep and its effects being over. -/
def conclude : Out → Handling Outcome
  | .ok => Handling.succeed
  | .err message => Handling.fail (.failed message)
  | .panic message => Handling.panic (.text message)
  | .panicStatic => Handling.panic (.text "static panic")
  | .panicAny => Handling.panic .opaqueValue
  | .panicSync message => Handling.panic (.text message)

/-- Publish a message straight to the broker and note what came of it. -/
def publish (publishing : Publishing) : Handling Unit := do
  let result ← Handling.send publishing
  Handling.note (.sent result)

/-- Do a deed. A handler that slept notes its end. -/
def perform (name : String) (call : Nat) (deed : Deed) : Handling Outcome := do
  if 0 < deed.sleep then Handling.sleep deed.sleep
  if deed.cancel then Handling.cancelRuns
  if deed.shutdown then Handling.shutdown
  match deed.publish with
  | some publishing => publish publishing
  | none => pure ()
  if 0 < deed.sleep then
    let time ← Handling.now
    Handling.note (.ending name call time)
  conclude deed.out

/-- Handle a message: note the call, then do its deed. -/
def handle (script : Script) (name : String) (counter : Nat) (payload : SeenPayload)
    (info : DeliveryMeta) : Handling Outcome := do
  let call ← Handling.count counter
  let time ← Handling.now
  Handling.note (.called name call payload info time)
  let deed := script.deed call
  match deed.out with
  | .panicSync message => Handling.panic (.text message)
  | _ => perform name call deed

/-- The handler of bodies. -/
def raw (script : Script) (name : String) (counter : Nat) (body : Bytes) (info : DeliveryMeta) :
    Handling Outcome :=
  script.handle name counter (.raw body) info

/-- The handler of payloads of a type. A payload that cannot be encoded is seen as null. -/
def typed (script : Script) (name : String) (counter : Nat) (sample : Sample)
    (value : sample.Carrier) (info : DeliveryMeta) : Handling Outcome :=
  let seen := match Payload.toJson value with
    | .ok json => json
    | .error _ => .null
  script.handle name counter (.typed seen) info

end Script

/-- A router of scripted handlers. -/
structure RouterSetup where
  failFast : Bool := false
  routes : List (Sample × Script) := []
  fallback : Option Script := none

namespace RouterSetup

/-- Add routes, counted from `index`, whose counters start at `counter`. -/
def addRoutes (router : Router) (index counter : Nat) : List (Sample × Script) → Router
  | [] => router
  | (sample, script) :: rest =>
    let router := router.route sample.Carrier
      (script.typed s!"route{index}" (counter + index) sample)
    addRoutes router (index + 1) counter rest

/-- How many counters the router needs. -/
def counters (setup : RouterSetup) : Nat :=
  setup.routes.length + 1

/-- The router, its counters starting at `counter`. -/
def build (setup : RouterSetup) (counter : Nat) : Router :=
  let router := addRoutes { validator := ⟨setup.failFast⟩ } 0 counter setup.routes
  match setup.fallback with
  | none => router
  | some script => router.withDefault (script.raw "fallback" (counter + setup.routes.length))

end RouterSetup

/-- A middleware of a setup. -/
inductive Layer where
  | recover
  | logging
  | record (name : String)
  | swallow
  | reject (message : String)
  | panic (message : String)
  | retag (routingKey : String)
  | cancelAt (n : Nat)
  deriving DecidableEq, Repr

/-- The middleware of a layer, with a counter that it may use. -/
def Layer.build (counter : Nat) : Layer → Middleware
  | .recover => Middleware.recover
  | .logging => Middleware.logging
  | .record name => Middleware.record name
  | .swallow => Middleware.swallow
  | .reject message => Middleware.reject message
  | .panic message => Middleware.panicking message
  | .retag routingKey => Middleware.retag routingKey
  | .cancelAt n => Middleware.cancelAt counter n

/-- The handler of a consumer. -/
inductive HandlerSetup where
  | raw (script : Script)
  | typed (sample : Sample) (script : Script)
  | router (setup : RouterSetup)

/-- A consumer of a setup. -/
structure ConsumerSetup where
  name : Option String := none
  config : ConsumerConfig
  handler : HandlerSetup
  layers : List Layer := []

/-- A registration. -/
inductive Registration where
  | use (layer : Layer)
  /-- Replace the validator of a broker. -/
  | validator (failFast : Bool)
  /-- Take over the consumers of another group. -/
  | merge (failFast : Bool) (registrations : List Registration)
  | consumer (setup : ConsumerSetup)

namespace Registration

/-- The middlewares of layers, their counters starting at `counter`. -/
def buildLayers (counter : Nat) : List Layer → List Middleware
  | [] => []
  | layer :: rest => layer.build counter :: buildLayers (counter + 1) rest

/-- Register a consumer, the `index`-th of its list. The answer holds the next free counter. -/
def addConsumer (broker : Broker) (setup : ConsumerSetup) (index counter : Nat) : Broker × Nat :=
  let name := setup.name.getD s!"{setup.config.queue}#{index}"
  let middlewares := buildLayers counter setup.layers
  let counter := counter + setup.layers.length
  match setup.handler with
  | .raw script =>
    (broker.addRawConsumer setup.config (script.raw name counter) middlewares, counter + 1)
  | .typed sample script =>
    (broker.addConsumer setup.config (script.typed name counter sample) middlewares, counter + 1)
  | .router routes =>
    let router := routes.build counter
    (broker.addRawConsumer setup.config (fun body info => router.dispatch ⟨info, body⟩) middlewares,
      counter + routes.counters)

/-- A broker that has nothing but a group with this validator. -/
def bare (failFast : Bool) : Broker where
  connected := true
  group := { validator := ⟨failFast⟩ }

/-- Carry out registrations, the next one being the `index`-th of its list. A group stands for the
broker that owns nothing else; its validator cannot be replaced, so there is no answer then. -/
def extend (replaceable : Bool) (broker : Broker) (index counter : Nat) :
    List Registration → Option (Broker × Nat)
  | [] => some (broker, counter)
  | .use layer :: rest =>
    extend replaceable (broker.useMiddleware (layer.build counter)) (index + 1) (counter + 1) rest
  | .validator failFast :: rest =>
    if replaceable then
      extend replaceable (broker.withValidator ⟨failFast⟩) (index + 1) counter rest
    else none
  | .merge failFast registrations :: rest => do
    let (other, counter) ← extend false (bare failFast) 0 counter registrations
    extend replaceable (broker.merge other.group) (index + 1) counter rest
  | .consumer setup :: rest =>
    let (broker, counter) := addConsumer broker setup index counter
    extend replaceable broker (index + 1) counter rest

end Registration

end Courier.Simulation
