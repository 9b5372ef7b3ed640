import Courier.Proofs.Delivery.Reading
import Courier.Proofs.Outbox.Serial
import Courier.Proofs.Pipeline.System

/-!
# A relay and a consumer

The pipeline with one relay and one broker, and a consumer that reads a queue of this broker. An
event that must not happen is passed over:

* writers write one after another (`Outbox.alone`), and lock nothing;
* the relay has one cycle at work at a time;
* from the first cycle on, the queue exists and all rows are sent to it (`System.matched`);
* the queue is read by the consumer only, and fed by the relay only: whatever else befalls the broker
  leaves it as long as it is.

The consumer has as many lanes as its settings say. A lane is answered by the broker; what its handler
is answered, and when it is told to stop, comes with the event. A message is taken from the queue in
one event, and the handler is called with it in the next one.
-/

namespace Courier.Delivery

/-- A lane at work, or one that has ended. -/
structure Reader where
  /-- What is left of its turn. -/
  rest : Consuming.Action (Lane ⊕ Except ConsumeError Unit)
  /-- A message that it has taken and not yet called its handler with. -/
  taken : Option Message := none

def Reader.ended (r : Reader) : Bool :=
  match r.rest with
  | .done _ => true
  | .ask .. => false

/-- A lane that has done its turn and reads on takes the next one. -/
def again : Consuming.Action (Lane ⊕ Except ConsumeError Unit) →
    Consuming.Action (Lane ⊕ Except ConsumeError Unit)
  | .done (.inl lane) => lane.turn
  | p => p

/-- What a lane receives from its stream; nothing as long as it has to wait. -/
def received? : Transport.Next → Option Consuming.Received
  | .waiting => none
  | .ended => some .ended
  | .delivered delivery message => some (.delivered delivery message)
  | .failed e => some (.failed e)

/-- The message that comes with an answer. -/
def messageIn : (r : Consuming.Request) → Requests.Answer r → Option Message
  | .receive .., .delivered _ message => some message
  | _, _ => none

structure System where
  pipeline : Pipeline.System := { brokers := fun _ => {} }
  readers : List Reader := []
  /-- The messages that the handler was called with, in order. -/
  handled : List Message := []

inductive Event where
  | write (op : Outbox.Operation)
  /-- The relay starts a cycle. -/
  | poll (cancel : TokenId) (batchSize : Nat)
  | advance (poll : Nat) (pool : (r : Pooling.Request) → Requests.Answer r)
  | broker (activity : Memory.Activity)
  /-- The consumer starts its lanes. -/
  | run (stops : List TokenId)
  /-- A lane goes on; what the broker does not answer is answered by this. -/
  | read (reader : Nat) (others : (r : Consuming.Request) → Requests.Answer r)

namespace System

variable (s : System)

def broker : Memory :=
  s.pipeline.brokers 0

/-- Something befalls the broker. -/
def befall (activity : Memory.Activity) : System :=
  { s with pipeline := s.pipeline.step (.broker 0 activity) }

/-- Answer a request of a lane, if it need not wait. -/
def answer (others : (r : Consuming.Request) → Requests.Answer r) :
    (r : Consuming.Request) → Option (Requests.Answer r) × System
  | .session r => (some (Memory.answer r s.broker).1, s.befall (.request r))
  | .receive stream stops =>
    match others (.receive stream stops) with
    | .stopped => (some .stopped, s)
    | _ => (received? (s.broker.next stream).1, s.befall (.ask stream))
  | r => (some (others r), s)

/-- A lane goes on with an answer, or waits on. -/
def heard (reader : Nat) (request : Consuming.Request)
    (next : Requests.Answer request → Consuming.Action (Lane ⊕ Except ConsumeError Unit)) :
    Option (Requests.Answer request) × System → System
  | (none, s) => s
  | (some a, s) =>
    { s with
      readers := s.readers.set reader {
        rest := again (next a)
        taken := messageIn request a } }

/-- A lane calls its handler, or has its next request answered. -/
def read (reader : Nat) (others : (r : Consuming.Request) → Requests.Answer r) : System :=
  match s.readers[reader]? with
  | none => s
  | some r =>
    match r.taken with
    | some message =>
      { s with
        handled := s.handled ++ [message]
        readers := s.readers.set reader { r with taken := none } }
    | none =>
      match r.rest with
      | .done _ => s
      | .ask request next => heard reader request next (s.answer others request)

section Setting

variable (relay : Forwarder) (consumer : Consumer)

/-- Are all rows sent to the queue, those committed and those still staged? -/
def matched (o : Outbox) : Bool :=
  (o.rows ++ o.staged).all fun row =>
    s.broker.sendsTo consumer.config.queue (relay.publishing row)

def mayWrite (op : Outbox.Operation) : Bool :=
  match op with
  | .fetch .. => false
  | op =>
    !op.writes || op.transaction?.all s.pipeline.outbox.alone &&
      (s.pipeline.polls.isEmpty || s.matched relay consumer (s.pipeline.outbox.step op))

def mayPoll : Bool :=
  s.pipeline.polls.all (·.finished) && s.matched relay consumer s.pipeline.outbox

/-- Nothing but the relay feeds the queue, and nobody but the consumer reads it. -/
def mayBefall (activity : Memory.Activity) : Bool :=
  (s.broker.act activity).queueLen consumer.config.queue ==
    s.broker.queueLen consumer.config.queue

def step : Event → System
  | .write op =>
    if s.mayWrite relay consumer op then { s with pipeline := s.pipeline.step (.write op) } else s
  | .poll cancel batchSize =>
    if s.mayPoll relay consumer then
      { s with pipeline := s.pipeline.step (.poll relay 0 cancel batchSize) }
    else s
  | .advance poll pool => { s with pipeline := s.pipeline.step (.advance poll pool) }
  | .broker activity => if s.mayBefall consumer activity then s.befall activity else s
  | .run stops =>
    if s.readers.all (·.ended) then
      { s with
        readers := List.replicate consumer.config.lanes { rest := Lane.start consumer stops } }
    else s
  | .read reader others => s.read reader others

/-- Any interleaving of events. -/
def after (events : List Event) : System :=
  events.foldl (fun s => s.step relay consumer) s

end Setting

end System

/-! ## Messages and rows -/

/-- What a message was published as: the broker has given it its number then. -/
def entryOf (appended : List Pipeline.Appended) (message : Message) : Option Pipeline.Appended :=
  appended.find? fun a => message.info.messageId == some s!"msg-{a.number}"

/-- The row that a message was published for. -/
def rowOf (appended : List Pipeline.Appended) (message : Message) : Option Int :=
  (entryOf appended message).map (·.entry.id)

def rowsOf (appended : List Pipeline.Appended) (messages : List Message) : List Int :=
  messages.filterMap (rowOf appended)

/-- The rows that the handler was called with, in order, each as often as it was. -/
def System.handledRows (s : System) : List Int :=
  rowsOf s.pipeline.appended s.handled

end Courier.Delivery
