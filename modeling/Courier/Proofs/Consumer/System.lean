import Courier.Proofs.Consumer.Protocol
import Courier.Proofs.Delivery.System
import Courier.Proofs.Memory.Arrivals
import Courier.Proofs.Memory.Handles

/-!
# Groups at work on a broker

Any number of runs of any groups, with their lanes, on one in-memory broker. Each run and each lane
is the program that it is, and goes on by one request at a time; a look of a lane at its tokens and
then at its stream is one request. Anything else may befall the broker in between, only that nobody
else uses a channel, a stream or a delivery of a run or of a lane. What a handler does to its
surroundings are events of their own, and it is answered when it is let go on, so it may wait for as
long as it likes.

A lane that is `ready` can go on: it has just started, or got its last answer, or its stream or one
of its tokens has woken it. A lane that has nothing to receive is ready no longer. Nobody is kept
from looking before, so a lane may also go on that is not ready.

What has befallen the broker is kept, and so is who made what there (`System.maker`). Of a run it is
noted how many declarations were answered with success, and the error of the one that was not.
-/

namespace Courier.Serving

open Consuming (Request)
open Delivery (again received?)

/-- Who makes something at the broker. -/
inductive Owner where
  | run (number : Nat)
  | lane (number : Nat)
  deriving DecidableEq

/-- A run of a group. -/
structure Run where
  group : Group
  /-- The tokens that stop it. -/
  cancel : TokenId
  delivery : TokenId
  /-- What is left of its turn. -/
  rest : Consuming.Action Group.Progress
  /-- How lanes have ended, as far as it has not looked. -/
  ended : List (Except ConsumeError Unit) := []
  /-- How many declarations it has made. -/
  declared : Nat := 0
  /-- Why the next one could not be made. -/
  refused : Option TransportError := none

namespace Run

/-- Note how a declaration was answered. -/
def toldOf (run : Run) : Except TransportError Unit → Run
  | .ok () => { run with declared := run.declared + 1 }
  | .error e => { run with refused := some e }

/-- Note an answer of the broker. -/
def told (run : Run) : (r : Transport.Request) → Requests.Answer r → Run
  | .declareExchange .., a => run.toldOf a
  | .declareQueue .., a => run.toldOf a
  | .bindQueue .., a => run.toldOf a
  | _, _ => run

/-- It has returned this. -/
def Returned (run : Run) (result : Except ConsumeError Unit) : Prop :=
  run.rest = .done (.inr result)

end Run

/-- A lane of a run. -/
structure Worker where
  run : Nat
  consumer : Consumer
  stops : List TokenId
  /-- What is left of its turn. -/
  rest : Consuming.Action (Lane ⊕ Except ConsumeError Unit)

namespace Worker

/-- A lane that starts. -/
def fresh (run : Nat) (consumer : Consumer) (stops : List TokenId) : Worker :=
  ⟨run, consumer, stops, Lane.start consumer stops⟩

def queue (lane : Worker) : String :=
  lane.consumer.config.queue

def finished (lane : Worker) : Bool :=
  match lane.rest with
  | .done _ => true
  | .ask .. => false

/-- Is it in its handler, which has asked for something? -/
def handling (lane : Worker) : Bool :=
  match lane.rest with
  | .ask (.handler _) _ => true
  | _ => false

end Worker

/-- A run that has done its turn and goes on takes the next one. -/
def onward : Consuming.Action Group.Progress → Consuming.Action Group.Progress
  | .done (.inl running) => running.turn
  | p => p

structure System where
  /-- All that has befallen the broker. -/
  history : List Memory.Activity := []
  tokens : Tokens := {}
  runs : List Run := []
  lanes : List Worker := []
  /-- The lanes that can go on. -/
  ready : List Nat := []
  /-- The runs and lanes that have made something at the broker. -/
  maker : Handle → Option Owner := fun _ => none
  /-- The runs that have made a token for their lanes. -/
  stopper : TokenId → Option Nat := fun _ => none

inductive Event where
  /-- A run begins. -/
  | start (g : Group) (cancel delivery : TokenId)
  | run (i : Nat)
  /-- A lane goes on; if its handler has asked for something, this is the answer. -/
  | lane (j : Nat) (answer : (r : Handler.Request) → Requests.Answer r)
  /-- Something else befalls the broker. -/
  | other (activity : Memory.Activity)
  /-- A token is cancelled, of a run or of a service that shuts down. -/
  | cancel (token : TokenId)
  | newToken

/-- Who has made what, after an activity of this owner. -/
def made (maker : Handle → Option Owner) (m : Memory) (owner : Option Owner)
    (activity : Memory.Activity) : Handle → Option Owner :=
  match activity.made m with
  | some h => Function.update maker h owner
  | none => maker

namespace System

variable (s : System)

def broker : Memory :=
  ({} : Memory).after s.history

/-- The copies of messages that were put into queues, and the settlements. -/
def account : Memory.Account :=
  Memory.Account.noteAll {} {} s.history

/-- The lane that reads a stream. -/
def reader? (stream : StreamId) : Option Nat :=
  match s.maker (.stream stream) with
  | some (.lane j) => some j
  | _ => none

def wake (lanes : List Nat) : System :=
  { s with ready := s.ready ++ lanes }

/-- A lane cannot go on. -/
def rest (j : Nat) : System :=
  { s with ready := s.ready.filter (· != j) }

/-- Change the tokens, and wake whom that concerns. -/
def setTokens (tokens : Tokens) : System :=
  { s with tokens := { tokens with woken := [] } }.wake tokens.woken

/-- Something befalls the broker, done by this owner, and the lanes that it wakes can go on. -/
def befall (owner : Option Owner) (activity : Memory.Activity) : System :=
  { s with
    history := s.history ++ [activity]
    maker := made s.maker s.broker owner activity }.wake
    (((s.broker.act activity).woken.drop s.broker.woken.length).filterMap s.reader?)

/-! ## Lanes -/

/-- Wait for tokens. -/
def register (j : Nat) (stops : List TokenId) : System :=
  { s with tokens := stops.foldl (·.register · j) s.tokens }

/-- Wait for tokens no longer. -/
def unregister (j : Nat) (stops : List TokenId) : System :=
  { s with tokens := stops.foldl (·.unregister · j) s.tokens }

/-- Look for the word to stop, and then for a message. -/
def receive (j : Nat) (stream : StreamId) (stops : List TokenId) : Option Consuming.Received × System :=
  if stops.any s.tokens.isCancelled then (some .stopped, s.unregister j stops)
  else
    match received? (s.broker.next stream).1 with
    | none => (none, (s.befall (some (.lane j)) (.ask stream)).register j stops)
    | some received =>
      (some received, (s.befall (some (.lane j)) (.ask stream)).unregister j stops)

/-- The answer to a request of a lane. There is none as long as it waits. -/
def answerLane (j : Nat) (answer : (r : Handler.Request) → Requests.Answer r) :
    (r : Request) → Option (Requests.Answer r) × System
  | .session r =>
    (some (Memory.answer r s.broker).1, s.befall (some (.lane j)) (.request r))
  | .handler r => (some (answer r), s)
  | .receive stream stops => s.receive j stream stops
  | _ => (none, s)

def setLane (j : Nat) (lane : Worker) : System :=
  { s with lanes := s.lanes.set j lane }

def setRun (i : Nat) (run : Run) : System :=
  { s with runs := s.runs.set i run }

/-- A lane has so much left to do. If that is nothing, its run is told how it has ended. -/
def goOn (j : Nat) (lane : Worker) :
    Consuming.Action (Lane ⊕ Except ConsumeError Unit) → System
  | .done (.inr result) =>
    { s.setLane j { lane with rest := .done (.inr result) } with
      runs := s.runs.modify lane.run fun run => { run with ended := run.ended ++ [result] } }.rest j
  | p => (s.setLane j { lane with rest := p }).wake [j]

/-- A lane goes on with an answer, or has to wait. -/
def hearLane (j : Nat) (lane : Worker) {r : Request}
    (next : Requests.Answer r → Consuming.Action (Lane ⊕ Except ConsumeError Unit)) :
    Option (Requests.Answer r) × System → System
  | (none, s) => s.rest j
  | (some a, s) => s.goOn j lane (again (next a))

def runLane (j : Nat) (answer : (r : Handler.Request) → Requests.Answer r) : System :=
  match s.lanes[j]? with
  | none => s
  | some lane =>
    match lane.rest with
    | .done _ => s
    | .ask r next => hearLane j lane next (s.answerLane j answer r)

/-! ## Runs -/

def spawn (lane : Worker) : System :=
  { s with lanes := s.lanes ++ [lane] }.wake [s.lanes.length]

/-- The next lane of a run that has ended. -/
def join (i : Nat) (run : Run) : Option (Option (Except ConsumeError Unit) × Run) :=
  match run.ended with
  | result :: rest => some (some result, { run with ended := rest })
  | [] =>
    if s.lanes.all fun lane => lane.run != i || lane.finished then some (none, run) else none

/-- The answer to a request of a run, and the run then. There is none as long as it waits. -/
def answerRun (i : Nat) (run : Run) : (r : Request) → Option (Requests.Answer r × Run) × System
  | .session r =>
    let a := (Memory.answer r s.broker).1
    (some (a, run.told r a), s.befall (some (.run i)) (.request r))
  | .childToken parent =>
    let (token, tokens) := s.tokens.addChild parent
    (some (token, run), { s with tokens, stopper := Function.update s.stopper token (some i) })
  | .cancelToken token => (some ((), run), s.setTokens (s.tokens.cancel token))
  | .dropToken token => (some ((), run), { s with tokens := s.tokens.dropChild token })
  | .spawnLane number consumer stops => (some ((), run), s.spawn (.fresh number consumer stops))
  | .join _ => (s.join i run, s)
  | _ => (none, s)

/-- A run goes on with an answer, or has to wait. -/
def hearRun (i : Nat) {r : Request} (next : Requests.Answer r → Consuming.Action Group.Progress) :
    Option (Requests.Answer r × Run) × System → System
  | (none, s) => s
  | (some (a, run), s) => s.setRun i { run with rest := onward (next a) }

def runRun (i : Nat) : System :=
  match s.runs[i]? with
  | none => s
  | some run =>
    match run.rest with
    | .done _ => s
    | .ask r next => hearRun i next (s.answerRun i run r)

/-- A run of which there are the tokens; the one that its lanes' token is made from is no child. -/
def start (g : Group) (cancel delivery : TokenId) : System :=
  if s.tokens.tokens[cancel]?.any (·.parent.isNone) && delivery < s.tokens.tokens.length then
    { s with runs := s.runs ++
        [{ group := g, cancel, delivery, rest := g.start true s.runs.length cancel delivery }] }
  else s

/-! ## All events -/

def step : Event → System
  | .start g cancel delivery => s.start g cancel delivery
  | .run i => s.runRun i
  | .lane j answer => s.runLane j answer
  | .other activity =>
    if activity.handle?.all fun h => (s.maker h).isNone then s.befall none activity else s
  | .cancel token => s.setTokens (s.tokens.cancel token)
  | .newToken => { s with tokens := s.tokens.add.2 }

/-- Any interleaving of events. -/
def after (events : List Event) : System :=
  events.foldl step s

end System

end Courier.Serving
