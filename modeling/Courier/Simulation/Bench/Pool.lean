import Courier.Publisher.Pool
import Courier.Simulation.Reply

/-!
# The pool bench

One pool of numbered publishers that is used one step at a time. A call that has to wait becomes a
waiter, named by a handle; a publisher that was lent is held under a handle until it goes back.
After a step the bench may settle: late publishers are closed, and the waiters look again in the
order of their handles, over and over, until none of them comes to an end any more.
-/

namespace Courier.Simulation.PoolBench

/-- A step. Tokens are known by name. -/
inductive Step where
  | acquire (token : String)
  /-- Borrow a publisher, publish under a routing key, and give it back. -/
  | poolPublish (token routingKey : String)
  /-- Publish with a publisher that is held. -/
  | publish (held : Nat) (routingKey : String)
  | release (held : Nat)
  /-- Give a publisher back where nothing can be started, so a closed pool cannot close it. -/
  | releaseOutside (held : Nat)
  | dropWaiter (waiter : Nat)
  | cancel (token : String)
  | closeAll
  /-- Let the next publishes fail. -/
  | fail (count : Nat)
  | unknown

/-- What publishers do. -/
inductive Event where
  | published (publisher : Nat) (routingKey : String)
  | closed (publisher : Nat)
  deriving DecidableEq, Repr

/-- A waiting call: its token, and the routing key if it is to publish. -/
structure Waiter where
  token : String
  routingKey : Option String
  deriving DecidableEq, Repr

/-- The bench. -/
structure Bench where
  pool : Pool Nat
  /-- Names of tokens that were cancelled. -/
  cancelled : List String := []
  held : List (Option Nat) := []
  waiters : List (Option Waiter) := []
  /-- How many of the next publishes fail. -/
  failing : Nat := 0
  /-- Publishers about to be closed. -/
  closing : List Nat := []
  events : List Event := []

namespace Bench

def note (b : Bench) (event : Event) : Bench :=
  { b with events := b.events ++ [event] }

/-- Publish with a publisher. The routing key `panic` makes it panic. -/
def send (b : Bench) (publisher : Nat) (routingKey : String) :
    Option (Except TransportError Unit) × Bench :=
  let b := b.note (.published publisher routingKey)
  if routingKey = "panic" then (none, b)
  else if 0 < b.failing then
    (some (.error (.publish "scripted failure")), { b with failing := b.failing - 1 })
  else (some (.ok ()), b)

/-- Give a publisher back. -/
def putBack (b : Bench) (publisher : Nat) : Bench :=
  let (late, pool, _) := b.pool.putBack publisher
  { b with pool, closing := b.closing ++ late.toList }

/-- Let a call look at the pool. The answer is nothing if it waits. -/
def look (b : Bench) (handle : Nat) (call : Waiter) : Option Reply × Bench :=
  let (attempt, pool, _) :=
    b.pool.attempt (fun n => n) (b.cancelled.contains call.token) true handle
  let b := { b with pool }
  match attempt with
  | .waits => (none, b)
  | .refused e => (some (.failed (.publish e)), b)
  | .lent publisher =>
    match call.routingKey with
    | none =>
      (some (.held b.held.length publisher), { b with held := b.held ++ [some publisher] })
    | some routingKey =>
      let (result, b) := b.send publisher routingKey
      let b := b.putBack publisher
      match result with
      | none => (some (.failed .panicked), b)
      | some (.ok ()) => (some .ok, b)
      | some (.error e) => (some (.failed (.publish (.transport e))), b)

/-- A call's first look; if it has to wait it becomes a waiter. -/
def start (b : Bench) (call : Waiter) : Reply × Bench :=
  match b.look b.waiters.length call with
  | (some reply, b) => (reply, b)
  | (none, b) => (.waiter b.waiters.length, { b with waiters := b.waiters ++ [some call] })

/-- Do something with a publisher that is held. -/
def onHeld (b : Bench) (handle : Nat) (step : Nat → Reply × Bench) : Reply × Bench :=
  match b.held[handle]?.join with
  | some publisher => step publisher
  | none => (.badStep, b)

/-- Close the pool and its idle publishers. -/
def closeAll (b : Bench) : Bench :=
  let (idle, pool, _) := b.pool.drain
  idle.foldl (fun b publisher => { b.note (.closed publisher) with pool := b.pool.shrink })
    { b with pool }

/-- Take a step. -/
def step (b : Bench) : Step → Reply × Bench
  | .acquire token => b.start ⟨token, none⟩
  | .poolPublish token routingKey => b.start ⟨token, some routingKey⟩
  | .publish handle routingKey => b.onHeld handle fun publisher =>
    match b.send publisher routingKey with
    | (none, b) => (.failed .panicked, b)
    | (some result, b) => (.ofTransport result, b)
  | .release handle => b.onHeld handle fun publisher =>
    (.ok, { b with held := b.held.set handle none }.putBack publisher)
  | .releaseOutside handle => b.onHeld handle fun publisher =>
    (.ok, { { b with held := b.held.set handle none }.putBack publisher with closing := b.closing })
  | .dropWaiter handle =>
    match b.waiters[handle]?.join with
    | some _ =>
      let (pool, _) := b.pool.abandon handle
      (.ok, { b with pool, waiters := b.waiters.set handle none })
    | none => (.badStep, b)
  | .cancel token => (.ok, { b with cancelled := token :: b.cancelled })
  | .closeAll => (.ok, b.closeAll)
  | .fail count => (.ok, { b with failing := count })
  | .unknown => (.badStep, b)

/-- Close the publishers that came back late. -/
def closeLate (b : Bench) : Bench :=
  b.closing.foldl (fun b publisher => b.note (.closed publisher)) { b with closing := [] }

/-- Let the waiters with these handles look, in this order. The answer holds those that came to an
end. -/
def lookAll (b : Bench) : List Nat → List (Nat × Reply) × Bench
  | [] => ([], b)
  | handle :: rest =>
    match b.waiters[handle]?.join with
    | none => b.lookAll rest
    | some call =>
      match b.look handle call with
      | (none, b) => b.lookAll rest
      | (some reply, b) =>
        let (replies, b) := { b with waiters := b.waiters.set handle none }.lookAll rest
        ((handle, reply) :: replies, b)

/-- Rounds of looking until nothing happens in one. The first argument bounds their number. -/
def rounds : Nat → Bench → List (Nat × Reply) × Bench
  | 0, b => ([], b)
  | n + 1, b =>
    let (replies, b) := b.closeLate.lookAll (List.range b.waiters.length)
    if replies.isEmpty then ([], b.closeLate)
    else
      let (more, b) := rounds n b
      (replies ++ more, b)

/-- Settle. Every round but the last ends a waiter, so there are no more rounds than waiters. -/
def settle (b : Bench) : List (Nat × Reply) × Bench :=
  rounds (b.waiters.length + 1) b

end Bench

/-- What is reported after a step. -/
structure Report where
  reply : Reply
  size : Nat
  idle : Nat
  /-- Waiters that came to an end while the bench settled. -/
  woken : List (Nat × Reply)
  events : List Event

/-- Take steps one after another, each with whether the bench settles after it. The first report
is that of the new pool. -/
def run (config : PoolConfig) (steps : List (Bool × Step)) : Report × List Report :=
  let b : Bench := { pool := Pool.new config fun n => n }
  (report .ok [] b, go b steps)
where
  report (reply : Reply) (woken : List (Nat × Reply)) (b : Bench) : Report :=
    { reply, size := b.pool.size, idle := b.pool.idle.length, woken, events := b.events }
  go (b : Bench) : List (Bool × Step) → List Report
    | [] => []
    | (settles, step) :: rest =>
      let (reply, b) := b.step step
      let (woken, b) := if settles then b.settle else ([], b)
      report reply woken b :: go { b with events := [] } rest

end Courier.Simulation.PoolBench
