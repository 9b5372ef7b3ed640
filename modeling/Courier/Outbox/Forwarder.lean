import Courier.Json.Printer
import Courier.Outbox.Entry
import Courier.Publisher.Pooling

/-!
# Forwarding rows to a broker

A forwarder sends each outbox row to one exchange: the event's name is the routing key, the row's
headers are the message's headers, and its payload is the body as JSON text. Rows are published with
the guarantee that they arrive.
-/

namespace Courier

/-- Sends rows to an exchange. -/
structure Forwarder where
  exchange : String := "events"

namespace Forwarder

/-- The message of a row. -/
def publishing (f : Forwarder) (entry : OutboxEntry) : Publishing where
  destination := {
    exchange := f.exchange
    routingKey := entry.eventName
    headers := entry.headers }
  body := entry.payload.encode

/-- Send a row; a failure is answered by its text. -/
def send (f : Forwarder) (cancel : Nat) (entry : OutboxEntry) :
    Pooling.Action (Except String Unit) := do
  match ← Pooling.publish .atLeastOnce cancel (f.publishing entry) with
  | .ok () => pure (.ok ())
  | .error e => pure (.error e.message)

end Forwarder

end Courier
