import Courier.Simulation.Reply
import Courier.Simulation.Scheduler
import Courier.Simulation.Script

/-!
# The router bench

One router of scripted handlers, to which messages are handed one after another. Its handlers sleep
and end as their scripts say, and do nothing else.
-/

namespace Courier.Simulation.RouterBench

/-- What a handling came to, as a reply. -/
def replyOf : Option Outcome → Reply
  | some (.returned result) => .ofResult .handler result
  | some (.panicked _) => .failed .panicked
  | none => .failed .panicked

/-- A router without effects on a service. -/
def inert (setup : RouterSetup) : RouterSetup :=
  { setup with
    routes := setup.routes.map fun (sample, script) => (sample, script.inert)
    fallback := setup.fallback.map Script.inert }

/-- What is reported after a message. -/
structure Report where
  reply : Reply
  notes : List Note

/-- Hand messages to a router. The answer also holds the router itself. -/
def run (setup : RouterSetup) (messages : List Message) : Router × List Report :=
  let router := (inert setup).build 0
  (router, go router {} messages)
where
  go (router : Router) (w : World) : List Message → List Report
    | [] => []
    | message :: rest =>
      let (outcome, w) := w.call (Service.handling (router.dispatch message))
      ⟨replyOf outcome, w.notes⟩ :: go router { w with notes := [] } rest

end Courier.Simulation.RouterBench
