import Courier.Publisher.Channel
import Courier.Publisher.Pool

/-!
# One pool for each guarantee

Messages that must arrive and messages that may be lost are published by publishers of their own,
each kind from its own pool. A publish borrows a publisher, sends with it, and gives it back,
whatever came of the sending. Closing closes every idle publisher; one that is lent meanwhile is
closed when it comes back.

The programs here ask for the pools' operations, so what happens between two of them is left open.
-/

namespace Courier

/-- The pools of a connection. -/
structure Pools where
  confirmed : Pool ChannelPublisher
  fireAndForget : Pool ChannelPublisher

namespace Pools

/-- Two pools of the same size. -/
def new (config : PoolConfig) : Pools where
  confirmed := Pool.new config fun _ => ChannelPublisher.of .atLeastOnce
  fireAndForget := Pool.new config fun _ => ChannelPublisher.of .atMostOnce

/-- The pool that keeps a guarantee. -/
def get (pools : Pools) : Guarantee → Pool ChannelPublisher
  | .atLeastOnce => pools.confirmed
  | .atMostOnce => pools.fireAndForget

/-- Replace the pool that keeps a guarantee. -/
def set (pools : Pools) (pool : Pool ChannelPublisher) : Guarantee → Pools
  | .atLeastOnce => { pools with confirmed := pool }
  | .atMostOnce => { pools with fireAndForget := pool }

end Pools

namespace Pooling

/-- What publishing through pools asks for. -/
inductive Request where
  /-- A request to the connection. -/
  | session (r : Transport.Request)
  /-- Borrow a publisher, and wait for one until the token is cancelled. Without a connection
  there are no publishers. -/
  | acquire (guarantee : Guarantee) (cancel : Nat)
  /-- Give a publisher back. One that the pool does not keep is answered. -/
  | putBack (guarantee : Guarantee) (publisher : ChannelPublisher)
  /-- Close a pool; its idle publishers are answered. -/
  | drain (guarantee : Guarantee)
  /-- A publisher of a closed pool has been closed. -/
  | shrink (guarantee : Guarantee)
  /-- Close a publisher in a task of its own. -/
  | detach (publisher : ChannelPublisher)

instance : Requests Request where
  Answer
    | .session r => Requests.Answer r
    | .acquire .. => Except PublishError ChannelPublisher
    | .putBack .. => Option ChannelPublisher
    | .drain _ => List ChannelPublisher
    | .shrink _ => Unit
    | .detach _ => Unit

/-- Programs over the pools of a connection. -/
abbrev Action := Program Request

/-- Talk to the connection. -/
def session {α : Type} (p : Transport.Session α) : Action α :=
  p.interpret fun r => Program.ask (Request.session r) Program.done

def acquire (guarantee : Guarantee) (cancel : Nat) :
    Action (Except PublishError ChannelPublisher) :=
  Program.request (Request.acquire guarantee cancel)

/-- Give a publisher back, and have it closed if the pool does not keep it. -/
def release (guarantee : Guarantee) (publisher : ChannelPublisher) : Action Unit := do
  let late : Option ChannelPublisher ← Program.request (Request.putBack guarantee publisher)
  match late with
  | none => pure ()
  | some late => Program.request (Request.detach late)

/-- Publish with a borrowed publisher. -/
def publish (guarantee : Guarantee) (cancel : Nat) (publishing : Publishing) :
    Action (Except PublishError Unit) := do
  match ← acquire guarantee cancel with
  | .error e => pure (.error e)
  | .ok publisher =>
    let (result, publisher) ← session (publisher.send publishing)
    release guarantee publisher
    match result with
    | .ok () => pure (.ok ())
    | .error e => pure (.error (.transport e))

/-- Close publishers one after another. -/
def closeEach (guarantee : Guarantee) : List ChannelPublisher → Action Unit
  | [] => pure ()
  | publisher :: rest => do
    let _ ← session publisher.close
    Program.request (Request.shrink guarantee)
    closeEach guarantee rest

/-- Close the pool of one guarantee. -/
def closePool (guarantee : Guarantee) : Action Unit := do
  let idle : List ChannelPublisher ← Program.request (Request.drain guarantee)
  closeEach guarantee idle

/-- Close both pools. -/
def closeAll : Action Unit := do
  closePool .atLeastOnce
  closePool .atMostOnce

end Pooling

end Courier
