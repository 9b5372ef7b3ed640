import Courier.Json.Typed
import Courier.Message

/-!
# Consumer settings

A consumer reads one queue in one or more lanes. Its settings name the queue, where it is bound,
how its failures are treated and where its dead letters go; `ConsumerConfig.reader` reads them from
JSON, where only the queue must be given.
-/

namespace Courier

/-- The settings of a consumer. -/
structure ConsumerConfig where
  queue : String
  /-- The exchange that the queue is bound to, if it is. -/
  exchange : Option String := none
  routingKey : String := ""
  bindingArgs : Headers := []
  durable : Bool := true
  autoDelete : Bool := false
  exclusive : Bool := false
  prefetchCount : UInt16 := 1
  /-- How many lanes read the queue at the same time. -/
  concurrency : Nat := 1
  /-- Do messages go back to the queue when their handler returned an error? -/
  retryOnError : Bool := false
  deadLetterExchange : Option String := none
  /-- The routing key of dead letters; the queue's name if it is not given. -/
  deadLetterRoutingKey : Option String := none

namespace ConsumerConfig

def withBinding (c : ConsumerConfig) (exchange routingKey : String) : ConsumerConfig :=
  { c with exchange := some exchange, routingKey }

def withBindingArg (c : ConsumerConfig) (key : String) (value : Json) : ConsumerConfig :=
  { c with bindingArgs := Json.Object.insert key value c.bindingArgs }

def withDurable (c : ConsumerConfig) (durable : Bool) : ConsumerConfig :=
  { c with durable }

def withAutoDelete (c : ConsumerConfig) (autoDelete : Bool) : ConsumerConfig :=
  { c with autoDelete }

def withExclusive (c : ConsumerConfig) (exclusive : Bool) : ConsumerConfig :=
  { c with exclusive }

def withPrefetchCount (c : ConsumerConfig) (prefetchCount : UInt16) : ConsumerConfig :=
  { c with prefetchCount }

def withConcurrency (c : ConsumerConfig) (concurrency : Nat) : ConsumerConfig :=
  { c with concurrency }

def withRetryOnError (c : ConsumerConfig) (retryOnError : Bool) : ConsumerConfig :=
  { c with retryOnError }

def withDeadLetter (c : ConsumerConfig) (exchange : String) (routingKey : Option String) :
    ConsumerConfig :=
  { c with deadLetterExchange := some exchange, deadLetterRoutingKey := routingKey }

/-- The queue that dead letters are kept in. -/
def deadLetterQueue (c : ConsumerConfig) : String :=
  c.queue ++ ".dlq"

/-- The routing key under which dead letters travel. -/
def deadLetterKey (c : ConsumerConfig) : String :=
  c.deadLetterRoutingKey.getD c.queue

/-- How many lanes run: one at least. -/
def lanes (c : ConsumerConfig) : Nat :=
  max c.concurrency 1

/-- How many unsettled deliveries a lane may hold: one at least. -/
def prefetch (c : ConsumerConfig) : UInt16 :=
  max c.prefetchCount 1

open Json Json.Reader in
/-- The settings in JSON, in their order in an array. -/
def fields : List (RecordField ConsumerConfig) := [
  .required "queue" text fun queue c => { c with queue },
  .defaulted "exchange" (nullable text) fun exchange c => { c with exchange },
  .defaulted "routing_key" text fun routingKey c => { c with routingKey },
  .defaulted "binding_args" headers fun bindingArgs c => { c with bindingArgs },
  .defaulted "durable" flag fun durable c => { c with durable },
  .defaulted "auto_delete" flag fun autoDelete c => { c with autoDelete },
  .defaulted "exclusive" flag fun exclusive c => { c with exclusive },
  .defaulted "prefetch_count" (natBelow UInt16.size) fun prefetchCount c =>
    { c with prefetchCount := UInt16.ofNat prefetchCount },
  .defaulted "concurrency" (natBelow UInt64.size) fun concurrency c => { c with concurrency },
  .defaulted "retry_on_error" flag fun retryOnError c => { c with retryOnError },
  .defaulted "dead_letter_exchange" (nullable text) fun deadLetterExchange c =>
    { c with deadLetterExchange },
  .defaulted "dead_letter_routing_key" (nullable text) fun deadLetterRoutingKey c =>
    { c with deadLetterRoutingKey }]

/-- Reads settings from JSON. -/
def reader : Json.Reader ConsumerConfig :=
  .plainRecord { queue := "" } fields

end ConsumerConfig

end Courier
