import Courier.Simulation.Reply
import Courier.Simulation.Tap

/-!
# Probes

Looking into the broker behind a tapped connection, and telling it what shall fail.
-/

namespace Courier.Simulation

/-- A question to the broker, or something that it is told. -/
inductive Probe where
  | failPublishes (count : Nat)
  /-- Let a method fail; with no method nothing fails. -/
  | fail (fault : Option Fault)
  | queueLen (queue : String)
  | queueExists (queue : String)
  | queueArguments (queue : String)
  | exchangeKind (exchange : String)
  | isBound (queue exchange routingKey : String)
  | published
  | acknowledgements

/-- Answer a probe. -/
def Tap.probe (tap : Tap) : Probe → Reply × Tap
  | .failPublishes count => (.ok, { tap with broker := tap.broker.failNextPublishes count })
  | .fail none => (.ok, tap)
  | .fail (some fault) => (.ok, tap.fail fault)
  | .queueLen queue => (.number (tap.broker.queueLen queue), tap)
  | .queueExists queue => (.flag (tap.broker.queueExists queue), tap)
  | .queueArguments queue => (.arguments (tap.broker.queueArguments queue), tap)
  | .exchangeKind exchange => (.kind (tap.broker.exchangeKind exchange), tap)
  | .isBound queue exchange routingKey =>
    (.flag (tap.broker.isBound queue exchange routingKey), tap)
  | .published => (.published tap.broker.published, tap)
  | .acknowledgements => (.acknowledgements tap.broker.acknowledgements, tap)

/-- The ready messages of those of the queues that exist. -/
def Tap.lengths (tap : Tap) (queues : List String) : List (String × Nat) :=
  (queues.filter tap.broker.queueExists).map fun queue => (queue, tap.broker.queueLen queue)

end Courier.Simulation
