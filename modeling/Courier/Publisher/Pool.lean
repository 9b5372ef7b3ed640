import Courier.Error
import Courier.Notify
import Courier.Publisher.Config

/-!
# Publisher pools

A pool lends publishers. Who wants one gets an idle one if there is one, a new one if the pool may
still grow, and waits otherwise until one comes back or the wait is cancelled. A publisher that
comes back to a closed pool is not kept but handed to the caller to be closed.

Waiters are numbers, each standing for one call that wants a publisher. Such a call looks at the pool
in several steps, and others may use the pool between any two of them; `Look` says how far it has
come, and `step` takes it one step further. `attempt` is a look without anyone in between: it ends the
call or leaves it waiting. Operations that wake waiters answer whom.
-/

namespace Courier

/-- A pool of publishers. -/
structure Pool (P : Type) where
  /-- Publishers that may be lent, the next one first. -/
  idle : List P
  /-- How many publishers there are, lent ones included. -/
  size : Nat
  maxSize : Nat
  closed : Bool := false
  /-- How many publishers have been made. -/
  created : Nat
  available : Notify := {}

namespace Pool

variable {P : Type}

/-- A pool with its first publishers; `make` makes the publisher of each number. -/
def new (config : PoolConfig) (make : Nat → P) : Pool P :=
  let config := config.normalized
  { idle := (List.range config.initialSize).map make
    size := config.initialSize
    maxSize := config.maxSize
    created := config.initialSize }

/-- How far a call has come in looking for a publisher. -/
inductive Look where
  /-- It has not begun, or has lain down to wait. -/
  | rests
  /-- It has found the pool open. -/
  | opened
  /-- It has found no publisher idle. -/
  | bare
  /-- It has found that there may be no more publishers. -/
  | full
  /-- It is down to be woken, or took a wake-up that was kept instead. -/
  | enrolled (took : Bool)
  /-- It has found nothing, but need not wait since it took a wake-up. -/
  | awake
  deriving DecidableEq, Repr

/-- What a call for a publisher came to. -/
inductive Attempt (P : Type) where
  | lent (publisher : P)
  | refused (error : PublishError)
  | waits

/-- What one step of a look came to. -/
inductive Progress (P : Type) where
  | comes (attempt : Attempt P)
  | goesOn (look : Look)

/-- A waiting call goes away; a wake-up that it was given passes on. -/
def abandon (pool : Pool P) (waiter : Nat) : Pool P × List Nat :=
  let (available, woken) := pool.available.abandon waiter
  ({ pool with available }, woken)

/-- A look begins: is the pool closed? -/
def enter (pool : Pool P) : Progress P :=
  if pool.closed then .comes (.refused .poolClosed) else .goesOn .opened

/-- A call gives up, since its wait has been cancelled. -/
def giveUp (pool : Pool P) (waiter : Nat) : Progress P × Pool P × List Nat :=
  let (pool, woken) := pool.abandon waiter
  (.comes (.refused .cancelled), pool, woken)

/-- The next step of a call that has come so far. A call that was woken while its wait was cancelled
may see either first; `cancelFirst` says which. Who puts itself down to be woken looks once more
whether a publisher is idle, since one may have come back meanwhile; whether the pool is closed it
looks only when it begins. -/
def step (pool : Pool P) (make : Nat → P) (cancelled cancelFirst : Bool) (waiter : Nat) :
    Look → Progress P × Pool P × List Nat
  | .rests =>
    if pool.available.sleeps waiter then
      if cancelled then pool.giveUp waiter else (.comes .waits, pool, [])
    else
      match pool.available.takeWakeUp waiter with
      | none => (pool.enter, pool, [])
      | some available =>
        if cancelled && cancelFirst then pool.giveUp waiter
        else (pool.enter, { pool with available }, [])
  | .opened =>
    match pool.idle with
    | p :: rest => (.comes (.lent p), { pool with idle := rest }, [])
    | [] => (.goesOn .bare, pool, [])
  | .bare =>
    if pool.size < pool.maxSize then
      (.comes (.lent (make pool.created)),
        { pool with size := pool.size + 1, created := pool.created + 1 }, [])
    else (.goesOn .full, pool, [])
  | .full =>
    let (available, took) := pool.available.sleepOrTake waiter
    (.goesOn (.enrolled took), { pool with available }, [])
  | .enrolled took =>
    match pool.idle with
    | p :: rest =>
      let (pool, woken) := { pool with idle := rest }.abandon waiter
      (.comes (.lent p), pool, woken)
    | [] => (.goesOn (if took then .awake else .rests), pool, [])
  | .awake =>
    if cancelled && cancelFirst then (.comes (.refused .cancelled), pool, [])
    else (pool.enter, pool, [])

/-- The steps of a look, as many as there may be, while nobody else uses the pool. -/
def steps (make : Nat → P) (cancelled cancelFirst : Bool) (waiter : Nat) :
    Nat → Pool P → Look → Attempt P × Pool P × List Nat
  | 0, pool, _ => (.waits, pool, [])
  | left + 1, pool, look =>
    match pool.step make cancelled cancelFirst waiter look with
    | (.comes attempt, pool, woken) => (attempt, pool, woken)
    | (.goesOn look, pool, woken) =>
      let (attempt, pool, more) := steps make cancelled cancelFirst waiter left pool look
      (attempt, pool, woken ++ more)

/-- One look of a call at the pool, its first or a later one, without anyone in between. It goes round
twice at most, since only one wake-up is kept. -/
def attempt (pool : Pool P) (make : Nat → P) (cancelled cancelFirst : Bool) (waiter : Nat) :
    Attempt P × Pool P × List Nat :=
  steps make cancelled cancelFirst waiter 11 pool .rests

/-- Give a publisher back. A closed pool does not keep it: it is answered, to be closed. The wake-up is
part of the step: a call that lies down just before it has it in place of the one that is kept. -/
def putBack (pool : Pool P) (publisher : P) : Option P × Pool P × List Nat :=
  if pool.closed then (some publisher, { pool with size := pool.size - 1 }, [])
  else
    let (available, woken) := pool.available.notifyOne
    (none, { pool with idle := pool.idle ++ [publisher], available }, woken)

/-- Close the pool: nothing is lent any more and all that wait are woken. The idle publishers are
answered, to be closed; each counts until `shrink`. A pool that is closed already has none. The
wake-ups are part of the step: a call that lies down just before them is woken with the others. -/
def drain (pool : Pool P) : List P × Pool P × List Nat :=
  if pool.closed then ([], pool, [])
  else
    let (available, woken) := pool.available.notifyAll
    (pool.idle, { pool with idle := [], closed := true, available }, woken)

/-- A drained publisher has been closed. -/
def shrink (pool : Pool P) : Pool P :=
  { pool with size := pool.size - 1 }

end Pool

end Courier
