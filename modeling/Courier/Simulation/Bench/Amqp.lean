import Courier.Amqp.Transport
import Courier.Simulation.Reply

/-!
# The AMQP bench

The connection through an AMQP client, over a client that is only played: it notes every call, lets
those fail that it was told to, refuses confirmations when told to, and delivers what was laid out
for it. There is one connection and one channel at a time.
-/

namespace Courier.Simulation.AmqpBench

open Courier.Amqp (Call Delivery Confirmation)

/-- A step. -/
inductive Step where
  | connect (config : AmqpConfig)
  /-- Use a connection of the client's that is there already. -/
  | wrap
  | openChannel
  /-- A request on the channel that answers no value. -/
  | request (r : ChannelId → Transport.Request)
  | consume (queue : String) (exclusive : Bool)
  /-- Lay out what the next stream yields next. -/
  | deliver (item : Except String Delivery)
  | ack (delivery : Nat)
  | nack (delivery : Nat) (requeue : Bool)
  /-- Let the next calls of a method fail. -/
  | fail (method : String) (count : Nat)
  /-- Let the next confirmations be refusals. -/
  | nackConfirms (count : Nat)
  | unknown

/-- A played client. -/
structure Client where
  /-- How often each method fails from now on. -/
  faults : List (String × Nat) := []
  /-- How many of the next confirmations are refusals. -/
  refusing : Nat := 0
  calls : List Call := []
  channels : Nat := 0
  streams : Nat := 0

namespace Client

/-- The name of a call. -/
def method : Call → String
  | .connect _ => "connect"
  | .createChannel => "create_channel"
  | .confirmSelect _ => "confirm_select"
  | .exchangeDeclare .. => "exchange_declare"
  | .queueDeclare .. => "queue_declare"
  | .queueBind .. => "queue_bind"
  | .basicQos .. => "basic_qos"
  | .basicPublish .. => "basic_publish"
  | .awaitConfirm _ => "confirm"
  | .basicConsume .. => "basic_consume"
  | .close .. => "close"
  | .ack .. => "ack"
  | .nack .. => "nack"

/-- Note a call, and have it fail if it shall. -/
def begin (c : Client) (call : Call) : Except String Unit × Client :=
  let c := { c with calls := c.calls ++ [call] }
  match c.faults.lookup (method call) with
  | some (n + 1) =>
    (.error s!"scripted {method call} failure",
      { c with faults := (method call, n) :: c.faults.filter (·.1 != method call) })
  | _ => (.ok (), c)

/-- Play a call. -/
def answer (call : Call) (c : Client) : Requests.Answer call × Client :=
  let (begun, c) := c.begin call
  match call with
  | .createChannel => (begun.map fun _ => c.channels, { c with channels := c.channels + 1 })
  | .basicConsume .. => (begun.map fun _ => c.streams, { c with streams := c.streams + 1 })
  | .awaitConfirm _ =>
    match begun with
    | .error cause => (.error cause, c)
    | .ok () =>
      if 0 < c.refusing then (.ok .nack, { c with refusing := c.refusing - 1 })
      else (.ok .ack, c)
  | .connect _ => (begun, c)
  | .confirmSelect _ => (begun, c)
  | .exchangeDeclare .. => (begun, c)
  | .queueDeclare .. => (begun, c)
  | .queueBind .. => (begun, c)
  | .basicQos .. => (begun, c)
  | .basicPublish .. => (begun, c)
  | .close .. => (begun, c)
  | .ack .. => (begun, c)
  | .nack .. => (begun, c)

end Client

/-- The bench. -/
structure Bench where
  client : Client := {}
  connected : Bool := false
  channel : Option ChannelId := none
  /-- What the next stream yields. -/
  queued : List (Except String Delivery) := []
  /-- How many messages were delivered. -/
  delivered : Nat := 0

namespace Bench

/-- Have the played client carry out a program. -/
def play {α : Type} (b : Bench) (action : Amqp.Action α) : α × Bench :=
  let (result, client) := action.run Client.answer b.client
  (result, { b with client })

/-- Carry out a request to the connection. -/
def ask (b : Bench) (r : Transport.Request) : Requests.Answer r × Bench :=
  b.play (Amqp.transport epoch r)

/-- Do something with the channel, if there is one. -/
def onChannel (b : Bench) (step : ChannelId → Reply × Bench) : Reply × Bench :=
  match b.channel with
  | some channel => step channel
  | none => (.badStep, b)

/-- Reply to a request that answers no value. -/
def replyTo (b : Bench) (r : Transport.Request) : Reply × Bench :=
  match r, b.ask r with
  | .openChannel, (_, b) => (.badStep, b)
  | .consume .., (_, b) => (.badStep, b)
  | .dropChannel _, (_, b) => (.ok, b)
  | .dropStream _, (_, b) => (.ok, b)
  | .confirmSelect _, (result, b) => (.ofTransport result, b)
  | .declareExchange .., (result, b) => (.ofTransport result, b)
  | .declareQueue .., (result, b) => (.ofTransport result, b)
  | .bindQueue .., (result, b) => (.ofTransport result, b)
  | .qos .., (result, b) => (.ofTransport result, b)
  | .publish .., (result, b) => (.ofTransport result, b)
  | .close _, (result, b) => (.ofTransport result, b)
  | .ack _, (result, b) => (.ofTransport result, b)
  | .nack .., (result, b) => (.ofTransport result, b)

/-- Settle a delivery, if there was one. -/
def settle (b : Bench) (delivery : Nat) (r : Transport.Request) : Reply × Bench :=
  if delivery < b.delivered then b.replyTo r else (.badStep, b)

/-- What a stream yields, as a reply. -/
def yielded (item : Except String Delivery) : Reply :=
  match Amqp.received item with
  | .ok message => .message message
  | .error e => .failed (.transport e)

/-- Is it a message? -/
def isMessage : Except String Delivery → Bool
  | .ok _ => true
  | .error _ => false

/-- Take a step. -/
def step (b : Bench) : Step → Reply × Bench
  | .connect config =>
    match b.play (Amqp.connect config) with
    | (.error e, b) => (.failed (.transport e), b)
    | (.ok connected, b) => (.flag connected, { b with connected })
  | .wrap => (.ok, { b with connected := true })
  | .openChannel =>
    if b.connected then
      match b.ask .openChannel with
      | (.error e, b) => (.failed (.transport e), b)
      | (.ok channel, b) => (.ok, { b with channel := some channel })
    else (.badStep, b)
  | .request r => b.onChannel fun channel => b.replyTo (r channel)
  | .consume queue exclusive => b.onChannel fun channel =>
    match b.ask (.consume channel queue exclusive) with
    | (.error e, b) => (.failed (.transport e), b)
    | (.ok _, b) =>
      (.several (b.queued.map yielded), { b with
        queued := []
        delivered := b.delivered + (b.queued.filter isMessage).length })
  | .deliver item => (.ok, { b with queued := b.queued ++ [item] })
  | .ack delivery => b.settle delivery (.ack delivery)
  | .nack delivery requeue => b.settle delivery (.nack delivery requeue)
  | .fail method count =>
    let faults := (method, count) :: b.client.faults.filter (·.1 != method)
    (.ok, { b with client := { b.client with faults } })
  | .nackConfirms count => (.ok, { b with client := { b.client with refusing := count } })
  | .unknown => (.badStep, b)

end Bench

/-- Take steps one after another. Each answers a reply and the calls that it made. -/
def run (steps : List Step) : List (Reply × List Call) :=
  go {} steps
where
  go (b : Bench) : List Step → List (Reply × List Call)
    | [] => []
    | step :: rest =>
      let (reply, b) := b.step step
      (reply, b.client.calls) :: go { b with client := { b.client with calls := [] } } rest

end Courier.Simulation.AmqpBench
