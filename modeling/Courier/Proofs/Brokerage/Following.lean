import Courier.Proofs.Brokerage.Events
import Mathlib.Data.List.Induction

/-!
# One task through all events

A task is known by its number from the event on that it comes with. What holds of it, and is kept by
every event, holds of it after all of them (`Good.follow`). Every event but those that are about it
leaves it as it is (`Good.stays`), and it goes on to be the task of its call: a task for a call that
is there after some events either was there before or was started by one of them (`born_after`).
-/

namespace Courier.Brokerage

variable {broker : Broker} {config : PoolConfig} {s : System} {i : Nat} {task : Task} {call : Call}

/-- The task for a call, when it comes. -/
def Call.fresh (broker : Broker) (call : Call) : Task where
  call := some call
  rest := call.program broker
  hand := call.hand

theorem System.after_append (broker : Broker) (s : System) (events more : List Event) :
    s.after broker (events ++ more) = (s.after broker events).after broker more :=
  List.foldl_append

theorem Good.stays (h : Good broker config s) (hget : s.tasks[i]? = some task) {e : Event}
    (he : e.task? ≠ some i) : (s.step broker e).tasks[i]? = some task := by
  have hlt : i < s.tasks.length := (List.getElem?_eq_some_iff.mp hget).1
  rw [← hget]
  refine (step_stepped h e).others i (fun hi => ?_) hlt
  cases ht : e.task? with
  | none =>
    rw [ht] at hi
    exact absurd hi (Nat.ne_of_lt hlt)
  | some j =>
    rw [ht] at hi he
    exact he (congrArg some hi.symm)

/-- What every event keeps of a task holds of it after all of them. -/
theorem Good.follow {P : System → Task → Prop}
    (hstep : ∀ s e task, Good broker config s → s.tasks[i]? = some task → P s task →
      ∃ task', (s.step broker e).tasks[i]? = some task' ∧ P (s.step broker e) task')
    (h : Good broker config s) (hget : s.tasks[i]? = some task) (hp : P s task)
    (events : List Event) :
    ∃ task', (s.after broker events).tasks[i]? = some task' ∧ P (s.after broker events) task' := by
  induction events generalizing s task with
  | nil => exact ⟨task, hget, hp⟩
  | cons e events ih =>
    obtain ⟨task', hget', hp'⟩ := hstep s e task h hget hp
    exact ih (h.stepped (step_stepped h e)) hget' hp'

/-! ## The tasks of calls -/

/-- What was asked for, of each task. -/
def System.calls (s : System) : List (Option Call) :=
  s.tasks.map Task.call

theorem calls_set {tasks : List Task} (hget : tasks[i]? = some task) {task' : Task}
    (more : List Task) (hcall : task'.call = task.call) :
    ((tasks ++ more).set i task').map Task.call = tasks.map Task.call ++ more.map Task.call := by
  obtain ⟨hlt, rfl⟩ := List.getElem?_eq_some_iff.mp hget
  have hlt' : i < (tasks.map Task.call).length := by rwa [List.length_map]
  have hself : tasks[i].call = (tasks.map Task.call)[i] := (List.getElem_map Task.call).symm
  rw [List.set_append_left i task' hlt, List.map_append, List.map_set, hcall, hself,
    List.set_getElem_self hlt']

/-- The one task that is set is still for its call. -/
theorem calls_setTask (hget : s.tasks[i]? = some task) {task' : Task} (hcall : task'.call = task.call) :
    (s.setTask i task').calls = s.calls := by
  have hset := calls_set hget [] hcall
  rwa [List.append_nil, List.map_nil, List.append_nil] at hset

/-- An answer leaves the tasks as they are, or spawns one that nobody asked for. -/
theorem answer_calls (s : System) (i : Nat) (task : Task) (w : Surroundings) (r : Service.Request) :
    ((s.answer i task w r).1.after task).call = task.call ∧
      ∃ more, (s.answer i task w r).2.tasks = s.tasks ++ more ∧
        (more.map Task.call = [] ∨ more.map Task.call = [none]) := by
  have hsame : ∃ more : List Task, s.tasks = s.tasks ++ more ∧
      (more.map Task.call = [] ∨ more.map Task.call = [none]) :=
    ⟨[], (List.append_nil _).symm, .inl rfl⟩
  unfold System.answer
  split
  · split <;> exact ⟨rfl, hsame⟩
  · unfold System.acquire
    dsimp only
    split <;> exact ⟨rfl, hsame⟩
  · unfold System.putBack
    split <;> exact ⟨rfl, hsame⟩
  · exact ⟨rfl, hsame⟩
  · exact ⟨rfl, hsame⟩
  · unfold System.detach
    split
    · exact ⟨rfl, [_], rfl, .inr rfl⟩
    · exact ⟨rfl, hsame⟩
  · exact ⟨rfl, hsame⟩
  · exact ⟨rfl, hsame⟩

/-- A task that goes on is still for its call, as all others are for theirs. -/
theorem run_calls (s : System) (i : Nat) (w : Surroundings) :
    (s.run i w).calls = s.calls ∨ (s.run i w).calls = s.calls ++ [none] := by
  have hmore : ∀ {calls : List (Option Call)} {more : List Task},
      calls = s.calls ++ more.map Task.call →
        (more.map Task.call = [] ∨ more.map Task.call = [none]) →
          calls = s.calls ∨ calls = s.calls ++ [none] := by
    rintro calls more rfl (hnone | hone)
    · rw [hnone, List.append_nil]
      exact .inl rfl
    · rw [hone]
      exact .inr rfl
  unfold System.run
  split
  · exact .inl rfl
  · rename_i task hget
    split
    · left
      unfold System.finish
      split
      · exact calls_setTask hget rfl
      · rfl
    · rename_i r next _
      obtain ⟨hcall, more, htasks, hnone⟩ := answer_calls s i task w r
      have set : ∀ {s' : System} {task' : Task}, s'.tasks = s.tasks ++ more →
          task'.call = task.call → (s'.setTask i task').calls = s.calls ++ more.map Task.call := by
        intro s' task' htasks hcall
        show (s'.tasks.set i _).map Task.call = _
        rw [htasks]
        exact calls_set hget _ hcall
      split <;> rename_i heq <;> rw [heq] at hcall htasks
      · exact hmore ((congrArg (List.map Task.call) htasks).trans List.map_append) hnone
      · exact hmore (set htasks hcall) hnone
      · exact hmore (set htasks hcall) hnone

/-- An event starts the task of a call, or leaves every task to its call. -/
theorem step_calls (broker : Broker) (s : System) (e : Event) :
    (∃ call, e = .start call ∧ (s.step broker e).tasks = s.tasks ++ [call.fresh broker]) ∨
      (s.step broker e).calls = s.calls ∨ (s.step broker e).calls = s.calls ++ [none] := by
  cases e with
  | start call =>
    simp only [System.step, System.start]
    split
    · exact .inl ⟨call, rfl, rfl⟩
    · exact .inr (.inl rfl)
  | run i w => exact .inr (run_calls s i w)
  | arrive i =>
    simp only [System.step, System.arrive]
    split <;> exact .inr (.inl rfl)
  | send i publishing =>
    right; left
    simp only [System.step, System.send]
    split
    · rename_i task hget
      split
      · exact calls_setTask hget rfl
      · rfl
    · rfl
  | drop i =>
    right; left
    simp only [System.step, System.drop]
    split
    · rename_i task hget
      split
      · exact calls_setTask hget rfl
      · rfl
    · rfl
  | abort i =>
    right; left
    simp only [System.step, System.abort]
    split
    · rename_i task hget
      split
      · split
        · exact calls_setTask hget rfl
        · rfl
      · exact calls_setTask hget rfl
      · rfl
    · rfl
  | cancel token => exact .inr (.inl rfl)
  | newToken => exact .inr (.inl rfl)
  | childToken parent => exact .inr (.inl rfl)

/-- The task of a call was there before, or was started by an event. -/
theorem born_after (broker : Broker) (s : System) (events : List Event)
    (hget : (s.after broker events).tasks[i]? = some task) (hcall : task.call = some call)
    (hlate : s.tasks.length ≤ i) :
    ∃ before after, events = before ++ .start call :: after ∧
      (s.after broker before).tasks.length ≤ i ∧
      ((s.after broker before).step broker (.start call)).tasks[i]? = some (call.fresh broker) := by
  induction events using List.reverseRecOn generalizing task with
  | nil => exact absurd (List.getElem?_eq_some_iff.mp hget).1 (Nat.not_lt_of_le hlate)
  | append_singleton events e ih =>
    rw [System.after_append] at hget
    change ((s.after broker events).step broker e).tasks[i]? = some task at hget
    have hearlier : ∀ task, (s.after broker events).tasks[i]? = some task → task.call = some call →
        ∃ before after, events ++ [e] = before ++ .start call :: after ∧
          (s.after broker before).tasks.length ≤ i ∧
          ((s.after broker before).step broker (.start call)).tasks[i]? = some (call.fresh broker) := by
      intro task hget hcall
      obtain ⟨before, after, rfl, hbefore, hborn⟩ := ih hget hcall
      exact ⟨before, after ++ [e], by rw [List.append_assoc, List.cons_append], hbefore, hborn⟩
    rcases step_calls broker (s.after broker events) e with ⟨call', rfl, htasks⟩ | hcalls
    · have hget' := hget
      rw [htasks] at hget'
      by_cases hlt : i < (s.after broker events).tasks.length
      · rw [List.getElem?_append_left hlt] at hget'
        exact hearlier task hget' hcall
      · rw [List.getElem?_append_right (Nat.le_of_not_lt hlt)] at hget'
        obtain rfl : call'.fresh broker = task :=
          List.mem_singleton.mp (List.mem_of_getElem? hget') ▸ rfl
        obtain rfl := Option.some.inj hcall
        exact ⟨events, [], rfl, Nat.le_of_not_lt hlt, hget⟩
    · have hthere : ((s.after broker events).step broker e).calls[i]? = some (some call) := by
        rw [System.calls, List.getElem?_map, hget, Option.map_some, hcall]
      have hbefore : (s.after broker events).calls[i]? = some (some call) := by
        rcases hcalls with hcalls | hcalls
        · rwa [hcalls] at hthere
        · rw [hcalls] at hthere
          by_cases hlt : i < (s.after broker events).calls.length
          · rwa [List.getElem?_append_left hlt] at hthere
          · rw [List.getElem?_append_right (Nat.le_of_not_lt hlt)] at hthere
            cases List.mem_singleton.mp (List.mem_of_getElem? hthere)
      rw [System.calls, List.getElem?_map, Option.map_eq_some_iff] at hbefore
      obtain ⟨task', hget', hcall'⟩ := hbefore
      exact hearlier task' hget' hcall'

end Courier.Brokerage
