import Courier.Memory.Matching
import Courier.Notify
import Courier.Transport.Request

/-!
# State of the in-memory broker

Exchanges, bindings and queues are looked up by name and never go away. A queue holds its ready
messages, the next one first, and who waits for one. Every message accepted and every settlement is
kept in order. Channels, streams and deliveries are numbered from zero in the order of their making.
-/

namespace Courier

namespace Memory

/-- A queue takes messages of an exchange that match. -/
structure Binding where
  queue : String
  exchange : String
  routingKey : String
  arguments : Headers

/-- A declared queue with its ready messages, the next one first. -/
structure Queue where
  declaration : QueueDeclaration
  messages : List Message := []
  /-- Streams that wait for a message. -/
  available : Notify := {}

/-- How a delivery was settled. -/
inductive Outcome where
  | ack
  | nack (requeue : Bool)
  deriving DecidableEq, Repr

/-- One settlement. -/
structure AckRecord where
  queue : String
  routingKey : String
  messageId : Option String
  outcome : Outcome
  deriving DecidableEq, Repr

/-- A channel that has been opened. -/
structure Channel where
  confirm : Bool := false
  closed : Bool := false
  /-- The queues it has streams of. -/
  consuming : List String := []

/-- A stream of deliveries of a queue. -/
structure Stream where
  channel : ChannelId
  queue : String

/-- A message taken from a queue. -/
structure Delivery where
  queue : String
  message : Message
  settled : Bool := false

end Memory

open Memory in
/-- An in-memory broker. -/
structure Memory where
  exchanges : List (String × ExchangeKind) := []
  bindings : List Binding := []
  queues : List (String × Queue) := []
  /-- Every message accepted, in order. -/
  published : List Publishing := []
  /-- Every settlement, in order. -/
  acknowledgements : List AckRecord := []
  /-- How many of the next publishes fail. -/
  failingPublishes : Nat := 0
  lastMessageId : Nat := 0
  channels : List Channel := []
  streams : List Stream := []
  deliveries : List Delivery := []
  /-- Streams woken since this was last looked at, in order. -/
  woken : List StreamId := []
  /-- The time given to messages, in seconds of the epoch. -/
  now : Int := 0

namespace Memory

def exchangeKind (m : Memory) (exchange : String) : Option ExchangeKind :=
  m.exchanges.lookup exchange

def queue? (m : Memory) (name : String) : Option Queue :=
  m.queues.lookup name

def queueExists (m : Memory) (name : String) : Bool :=
  (m.queue? name).isSome

/-- The number of ready messages; zero if there is no such queue. -/
def queueLen (m : Memory) (name : String) : Nat :=
  match m.queue? name with
  | some q => q.messages.length
  | none => 0

def queueArguments (m : Memory) (name : String) : Option Headers :=
  (m.queue? name).map (·.declaration.arguments)

def isBound (m : Memory) (queue exchange routingKey : String) : Bool :=
  m.bindings.any fun b =>
    b.queue == queue && b.exchange == exchange && b.routingKey == routingKey

/-- Channels opened and neither closed nor let go. -/
def openChannels (m : Memory) : Nat :=
  (m.channels.filter fun c => !c.closed).length

/-- Make the next publishes fail. -/
def failNextPublishes (m : Memory) (count : Nat) : Memory :=
  { m with failingPublishes := count }

/-- Change a queue that exists. -/
def modifyQueue (m : Memory) (name : String) (f : Queue → Queue) : Memory :=
  { m with queues := m.queues.map fun (n, q) => if n = name then (n, f q) else (n, q) }

/-- Use the waiters of a queue, and note whom that woke. -/
def notify (m : Memory) (name : String) (f : Notify → Notify × List Nat) : Memory :=
  match m.queue? name with
  | none => m
  | some q =>
    let (available, woken) := f q.available
    { m.modifyQueue name fun q => { q with available } with woken := m.woken ++ woken }

/-- Append a message to a queue and wake one waiter. -/
def push (m : Memory) (name : String) (message : Message) : Memory :=
  (m.modifyQueue name fun q => { q with messages := q.messages ++ [message] }).notify name
    Notify.notifyOne

/-- Put a message back to the front of a queue and wake one waiter. -/
def requeue (m : Memory) (name : String) (message : Message) : Memory :=
  (m.modifyQueue name fun q => { q with messages := message :: q.messages }).notify name
    Notify.notifyOne

/-- Take the next message of a queue. -/
def pop (m : Memory) (name : String) : Option (Message × Memory) :=
  match m.queue? name with
  | none => none
  | some q =>
    match q.messages with
    | [] => none
    | message :: rest => some (message, m.modifyQueue name fun q => { q with messages := rest })

end Memory

end Courier
