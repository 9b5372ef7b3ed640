import Courier.Consumer.Lane
import Courier.Outbox.Relay
import Courier.Publisher.Pooling

/-!
# What a service asks for

A service publishes, consumes and relays. Its tasks ask for all that these three ask for, so this
module joins their requests into one type and lifts their programs to it.
-/

namespace Courier.Service

/-- A request of some part of a service. -/
inductive Request where
  | pooling (r : Pooling.Request)
  | consuming (r : Consuming.Request)
  /-- A request of a relay that stops when a token is cancelled. -/
  | relay (r : Relay.Request) (cancel : TokenId)
  /-- Let all others that can run go first. -/
  | yield

instance : Requests Request where
  Answer
    | .pooling r => Requests.Answer r
    | .consuming r => Requests.Answer r
    | .relay r _ => Requests.Answer r
    | .yield => Unit

/-- Programs of a service. -/
abbrev Action := Program Request

/-- Publish. -/
def pooling {α : Type} (p : Pooling.Action α) : Action α :=
  p.interpret fun r => Program.ask (Request.pooling r) Program.done

/-- Consume. -/
def consuming {α : Type} (p : Consuming.Action α) : Action α :=
  p.interpret fun r => Program.ask (Request.consuming r) Program.done

/-- Run a handler. -/
def handling {α : Type} (p : Handling α) : Action α :=
  consuming (Consuming.handling p)

/-- Talk to the connection. -/
def session {α : Type} (p : Transport.Session α) : Action α :=
  pooling (Pooling.session p)

/-- Relay, and send rows as told. -/
def relaying {α : Type} (cancel : TokenId) (send : OutboxEntry → Action (Except String Unit))
    (p : Relay.Action α) : Action α :=
  p.interpret fun
    | .send entry => send entry
    | r => Program.ask (Request.relay r cancel) Program.done

end Courier.Service
