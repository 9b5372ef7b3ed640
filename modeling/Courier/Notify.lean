/-!
# Wake-ups

A `Notify` lets waiters sleep until they are told to look again. `notifyOne` wakes the waiter that
sleeps longest; if none sleeps it keeps one wake-up for the next that would. `notifyAll` wakes all
that sleep now and keeps nothing. A waiter that was woken by `notifyOne` and goes away before it
has looked passes its wake-up on, so none is lost with it.

Waiters are numbers. The operations answer whom they wake, in order.
-/

namespace Courier

/-- Who sleeps, and which wake-ups have not been taken yet. -/
structure Notify where
  /-- Is a wake-up kept for the next that would sleep? -/
  permit : Bool := false
  /-- Who sleeps, the longest first. -/
  waiting : List Nat := []
  /-- Who was woken alone and has not looked yet. -/
  handed : List Nat := []
  /-- Who was woken with all others and has not looked yet. -/
  released : List Nat := []
  deriving DecidableEq, Repr

namespace Notify

/-- Wake the waiter that sleeps longest, or keep the wake-up. -/
def notifyOne (n : Notify) : Notify × List Nat :=
  match n.waiting with
  | [] => ({ n with permit := true }, [])
  | w :: rest => ({ n with waiting := rest, handed := n.handed ++ [w] }, [w])

/-- Wake all that sleep. -/
def notifyAll (n : Notify) : Notify × List Nat :=
  ({ n with waiting := [], released := n.released ++ n.waiting }, n.waiting)

/-- Does the waiter sleep? -/
def sleeps (n : Notify) (w : Nat) : Bool :=
  n.waiting.contains w

/-- Does the waiter sleep, or has it been woken and not looked yet? -/
def knows (n : Notify) (w : Nat) : Bool :=
  n.waiting.contains w || n.handed.contains w || n.released.contains w

/-- Take the wake-up that the waiter was given, if it was given one. -/
def takeWakeUp (n : Notify) (w : Nat) : Option Notify :=
  if n.handed.contains w then some { n with handed := n.handed.erase w }
  else if n.released.contains w then some { n with released := n.released.erase w }
  else none

/-- A waiter that is about to sleep: it takes a wake-up that was kept, or sleeps. The answer says
whether it took one. -/
def sleepOrTake (n : Notify) (w : Nat) : Notify × Bool :=
  if n.permit then ({ n with permit := false }, true)
  else ({ n with waiting := n.waiting ++ [w] }, false)

/-- The waiter goes away; a wake-up given to it alone passes to the next. -/
def abandon (n : Notify) (w : Nat) : Notify × List Nat :=
  if n.handed.contains w then { n with handed := n.handed.erase w }.notifyOne
  else ({ n with waiting := n.waiting.erase w, released := n.released.erase w }, [])

end Notify

end Courier
