import Courier.Simulation.World

/-!
# The scheduler

One task goes on at a time, each until it has to wait, in the order in which they were woken. When
none can go on, those that let the others go first do; when there are none of these either, the
service is settled. The clock stands still while anyone can go on, and then jumps to the next alarm.

Callers from outside are served before the tasks that wake at the same time.
-/

namespace Courier.Simulation

open Program (Advanced)

/-- The greatest number of turns before a service that does not come to rest is left as it is. -/
def patience : Nat := 1000000

namespace World

/-- Replace what is left of a task's turn. -/
def setTurn (w : World) (task : TaskId) (turn : Option Turn) : World :=
  { w with tasks := w.tasks.modify task fun t => { t with turn } }

/-- A lane of a run has ended. -/
def endLane (w : World) (run : Nat) (result : Except ConsumeError Unit) : World :=
  match w.runs[run]? with
  | none => w
  | some lanes =>
    { w with runs := w.runs.set run {
        running := lanes.running - 1
        ended := lanes.ended ++ [result]
        joiner := none } }.wakeAll lanes.joiner.toList

/-- A task has ended. -/
def finish (w : World) : Ending → World
  | .lane run result => w.endLane run result
  | .closed => w
  | ending => { w with ended := w.ended ++ [ending] }

/-- Let a task go on with its turn. A task that has done its turn stays first in line. -/
def play (w : World) (task : TaskId) : World :=
  match w.tasks[task]? with
  | none => w
  | some ⟨none, _⟩ => w
  | some ⟨some turn, panicked⟩ =>
    match turn.advance (react task) w with
    | (.waiting rest, w) => w.setTurn task (some rest)
    | (.done (.inl routine), w) =>
      { w.setTurn task (some routine.turn) with ready := task :: w.ready }
    | (.done (.inr ending), w) => (w.setTurn task none).finish ending
    | (.panicked, w) => (w.setTurn task none).finish panicked

/-- Play turns until no task can go on. The first argument bounds their number. -/
def settle : Nat → World → World
  | 0, w => w
  | n + 1, w =>
    match w.ready, w.yielding with
    | task :: rest, _ => settle n ({ w with ready := rest }.play task)
    | [], [] => w
    | [], tasks =>
      settle n ({ w with yielding := [], rested := w.rested ++ tasks }.wakeAll tasks)

/-- Let every task run until all of them wait. -/
def settled (w : World) : World :=
  w.settle patience

/-- When the next alarm is due. -/
def nextAlarm? (w : World) : Option Nat :=
  ((w.alarms.map (·.due)).filter (w.clock < ·)).min?

/-- Set the clock and wake those whose alarm is due by then. -/
def setClock (w : World) (time : Nat) : World :=
  let due := w.alarms.filter fun alarm => w.clock < alarm.due && alarm.due ≤ time
  { w with clock := time }.wakeAll (due.map Alarm.task)

/-- Let time pass up to a moment, at which nobody has gone on yet. The first argument bounds the
number of alarms on the way. -/
def passUntil : Nat → Nat → World → World
  | 0, _, w => w
  | n + 1, time, w =>
    if time ≤ w.clock then w
    else
      let w := w.settled
      match w.nextAlarm? with
      | some due => if due < time then passUntil n time (w.setClock due) else w.setClock time
      | none => w.setClock time

/-- Let time pass up to a moment. -/
def waitUntil (w : World) (time : Nat) : World :=
  passUntil patience time w

/-- Let time pass while a condition holds and there are alarms. -/
def waitWhile (condition : World → Bool) : Nat → World → World
  | 0, w => w
  | n + 1, w =>
    let w := w.settled
    if condition w then
      match w.nextAlarm? with
      | some due => waitWhile condition n (w.setClock due)
      | none => w
    else w

/-! ## Callers from outside -/

/-- A call from outside and what is left of it. -/
structure Caller (α : Type) where
  id : TaskId
  action : Service.Action α

/-- Let a caller go on. One that panics stays where it is. -/
def attend {α : Type} (w : World) (caller : Caller α) : Caller α × World :=
  match caller.action.advance (react caller.id) w with
  | (.done result, w) => ({ caller with action := .done result }, w)
  | (.waiting action, w) => ({ caller with action }, w)
  | (.panicked, w) => (caller, w)

/-- Let callers go on, one after another. -/
def attendAll {α : Type} (w : World) : List (Caller α) → List (Caller α) × World
  | [] => ([], w)
  | caller :: rest =>
    let (caller, w) := w.attend caller
    let (rest, w) := w.attendAll rest
    (caller :: rest, w)

/-- The result of a call that is done. -/
def Caller.result? {α : Type} (caller : Caller α) : Option (TaskId × α) :=
  match caller.action with
  | .done result => some (caller.id, result)
  | .ask .. => none

/-- Callers that are served together: each time one of them can go on all do, beginning with the
next one in the round. The answer is what came of them, if they all came to an end. -/
def serve {α : Type} : Nat → List (Caller α) → World → Option (List (TaskId × α)) × World
  | 0, _, w => (none, w)
  | n + 1, callers, w =>
    let (callers, w) := w.attendAll callers
    match callers.mapM Caller.result? with
    | some results => (some results, w)
    | none =>
      let callers := callers.rotateLeft
      let w := w.settled
      if callers.any fun caller => w.rested.contains caller.id then serve n callers w
      else
        match w.nextAlarm? with
        | some due => serve n callers (w.setClock due)
        | none => (none, w)

/-- Give callers their numbers. -/
def enrolAll {α : Type} (w : World) : List (Service.Action α) → List (Caller α) × World
  | [] => ([], w)
  | action :: rest =>
    let (id, w) := w.enrol
    let (rest, w) := w.enrolAll rest
    (⟨id, action⟩ :: rest, w)

/-- Carry out calls from outside at the same time. The answer holds their results in the order of
the calls; it is empty if not all came to an end. -/
def callAll {α : Type} (w : World) (actions : List (Service.Action α)) : List α × World :=
  let (callers, w) := w.enrolAll actions
  match serve patience callers w with
  | (some results, w) =>
    ((results.mergeSort fun a b => a.1 ≤ b.1).map (·.2), w)
  | (none, w) => ([], w)

/-- Carry out a call from outside; the answer is nothing if it did not come to an end. -/
def call {α : Type} (w : World) (action : Service.Action α) : Option α × World :=
  let (results, w) := w.callAll [action]
  (results.head?, w)

end World

end Courier.Simulation
