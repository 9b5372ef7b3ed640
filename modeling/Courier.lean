import Courier.Amqp.Client
import Courier.Amqp.Transport
import Courier.Amqp.Value
import Courier.Broker
import Courier.Cancellation
import Courier.Consumer.Config
import Courier.Consumer.Group
import Courier.Consumer.Handler
import Courier.Consumer.Lane
import Courier.Consumer.Middleware
import Courier.Consumer.Payload
import Courier.Consumer.Router
import Courier.Decimal.Scientific
import Courier.Decimal.Shortest
import Courier.Error
import Courier.Json.Basic
import Courier.Json.Printer
import Courier.Json.Reader
import Courier.Json.Refusal
import Courier.Json.Typed
import Courier.Memory.Broker
import Courier.Memory.Matching
import Courier.Memory.State
import Courier.Message
import Courier.Notify
import Courier.Outbox.Entry
import Courier.Outbox.Forwarder
import Courier.Outbox.Relay
import Courier.Outbox.RelayConfig
import Courier.Outbox.Store
import Courier.Program
import Courier.Proofs.Amqp.Calls
import Courier.Proofs.Amqp.Confirmed
import Courier.Proofs.Amqp.Doubles
import Courier.Proofs.Amqp.Headers
import Courier.Proofs.Brokerage.Events
import Courier.Proofs.Brokerage.Following
import Courier.Proofs.Brokerage.Lodgings
import Courier.Proofs.Brokerage.Protocol
import Courier.Proofs.Brokerage.Relocation
import Courier.Proofs.Brokerage.Running
import Courier.Proofs.Brokerage.Shutdown
import Courier.Proofs.Brokerage.Steps
import Courier.Proofs.Brokerage.System
import Courier.Proofs.Brokerage.Waking
import Courier.Proofs.Consumer.Agreement
import Courier.Proofs.Consumer.Course
import Courier.Proofs.Consumer.Draining
import Courier.Proofs.Consumer.Grouping
import Courier.Proofs.Consumer.Heeding
import Courier.Proofs.Consumer.Holdings
import Courier.Proofs.Consumer.Invariant
import Courier.Proofs.Consumer.Lanes
import Courier.Proofs.Consumer.Layering
import Courier.Proofs.Consumer.OneLane
import Courier.Proofs.Consumer.Polling
import Courier.Proofs.Consumer.Protocol
import Courier.Proofs.Consumer.Routing
import Courier.Proofs.Consumer.Runs
import Courier.Proofs.Consumer.Settling
import Courier.Proofs.Consumer.Stranding
import Courier.Proofs.Consumer.System
import Courier.Proofs.Consumer.UntilStopped
import Courier.Proofs.Consumer.Waiting
import Courier.Proofs.Delivery.InOrder
import Courier.Proofs.Delivery.Order
import Courier.Proofs.Delivery.Readers
import Courier.Proofs.Delivery.Reading
import Courier.Proofs.Delivery.Relaying
import Courier.Proofs.Delivery.Sequence
import Courier.Proofs.Delivery.System
import Courier.Proofs.Dialogue
import Courier.Proofs.Handover.Order
import Courier.Proofs.Handover.System
import Courier.Proofs.Json.Lexemes
import Courier.Proofs.Json.Records
import Courier.Proofs.Json.RoundTrip
import Courier.Proofs.Lists
import Courier.Proofs.Memory.Account
import Courier.Proofs.Memory.Activities
import Courier.Proofs.Memory.Arrivals
import Courier.Proofs.Memory.Bindings
import Courier.Proofs.Memory.Changes
import Courier.Proofs.Memory.Conservation
import Courier.Proofs.Memory.DeadLetters
import Courier.Proofs.Memory.Declaring
import Courier.Proofs.Memory.Handles
import Courier.Proofs.Memory.InTurn
import Courier.Proofs.Memory.PlainTopics
import Courier.Proofs.Memory.Queues
import Courier.Proofs.Memory.Redeclaring
import Courier.Proofs.Memory.Routing
import Courier.Proofs.Memory.Streams
import Courier.Proofs.Memory.Tags
import Courier.Proofs.Memory.Topics
import Courier.Proofs.Memory.Topology
import Courier.Proofs.Memory.Undisturbed
import Courier.Proofs.Memory.Waiting
import Courier.Proofs.Notify
import Courier.Proofs.Outbox.Committed
import Courier.Proofs.Outbox.Followed
import Courier.Proofs.Outbox.History
import Courier.Proofs.Outbox.Invariant
import Courier.Proofs.Outbox.Isolation
import Courier.Proofs.Outbox.Legible
import Courier.Proofs.Outbox.Operations
import Courier.Proofs.Outbox.Rows
import Courier.Proofs.Outbox.Serial
import Courier.Proofs.Outbox.SkipLocked
import Courier.Proofs.Outbox.Stored
import Courier.Proofs.Outbox.Transactions
import Courier.Proofs.Pipeline.Accounting
import Courier.Proofs.Pipeline.Advance
import Courier.Proofs.Pipeline.Consistency
import Courier.Proofs.Pipeline.Cycle
import Courier.Proofs.Pipeline.Logs
import Courier.Proofs.Pipeline.System
import Courier.Proofs.Pipeline.Tags
import Courier.Proofs.Posting.Publishing
import Courier.Proofs.Posting.System
import Courier.Proofs.Protocol
import Courier.Proofs.Publisher.Calls
import Courier.Proofs.Publisher.ChannelProtocol
import Courier.Proofs.Publisher.Discipline
import Courier.Proofs.Publisher.Lending
import Courier.Proofs.Publisher.Places
import Courier.Proofs.Publisher.Searching
import Courier.Proofs.Publisher.Sending
import Courier.Proofs.Publisher.Serving
import Courier.Proofs.Publisher.Waiting
import Courier.Proofs.Relay.Cycle
import Courier.Proofs.Relay.Protocol
import Courier.Proofs.Relay.Running
import Courier.Proofs.Relay.Storage
import Courier.Proofs.Relay.Transactions
import Courier.Proofs.Text.Utf8
import Courier.Proofs.Tokens
import Courier.Proofs.Validation
import Courier.Proofs.Validation.FailFast
import Courier.Publisher.Channel
import Courier.Publisher.Config
import Courier.Publisher.Pool
import Courier.Publisher.Pooling
import Courier.Service
import Courier.Simulation.Bench.Amqp
import Courier.Simulation.Bench.Outbox
import Courier.Simulation.Bench.Pool
import Courier.Simulation.Bench.Relay
import Courier.Simulation.Bench.Router
import Courier.Simulation.Bench.Service
import Courier.Simulation.Bench.Transport
import Courier.Simulation.Payloads
import Courier.Simulation.Probe
import Courier.Simulation.Reply
import Courier.Simulation.Scheduler
import Courier.Simulation.Script
import Courier.Simulation.Tap
import Courier.Simulation.World
import Courier.Text.Blank
import Courier.Text.Utf8
import Courier.Trace
import Courier.Transport.Request
import Courier.Validation
