import Courier.Proofs.Brokerage.Following
import Courier.Proofs.Brokerage.Waking

/-!
# A broker is shut down

What holds once a shutdown has returned, whatever was under way when it was called and whatever
happens since (`shutDown_after`):

* both pools are closed, and the consumers have been stopped;
* a publish that has no publisher when its pool is closed gets none, unless it is just overtaken: it
  asks nothing of the connection, and two of its steps end it (`Asks.refusal_after`); the same of one
  that comes later (`Good.refusal_late`);
* no publisher is ever closed twice (`Good.closed_once`), and when nothing is under way any more each
  one that was made has been closed, nothing counts for the pools, and no channel is open
  (`Good.quiet`). Only one that comes back late where no task can be spawned is not closed but let go
  of (`not_closed_once`);
* who shuts down or closes a pool again finds nothing to do (`Good.empties_late`).

A publish that still waits while the other pool is being closed may get a publisher as before; its own
pool is what counts for it. One that is overtaken has found its pool open and has not yet lain down
when it is closed: it may then still grow the pool and send, or sleep. The publishers are accounted for
all the same.
-/

namespace Courier.Brokerage

variable {broker : Broker} {config : PoolConfig} {s s' : System} {i : Nat} {task : Task} {g : Guarantee}
  {cancel : TokenId} {destination : Destination} {body : Bytes} {waited : Prop}

/-- A shutdown has returned. -/
def System.ShutDown (s : System) : Prop :=
  ∃ task ∈ s.tasks, task.call = some .shutdown ∧ ∃ result, result ≠ .gone ∧ task.rest = .done result

/-- Nothing is under way: no task can go on, or waits for the connection, or has a guard. -/
structure System.Calm (s : System) : Prop where
  ready : s.ready = []
  answered : ∀ task ∈ s.tasks, ∀ r next, task.rest ≠ .ask (.pooling (.session r)) next
  guards : ∀ task ∈ s.tasks, ∀ publisher, task.rest ≠ .done (.acquired (.ok publisher))

/-- Those of one pool. -/
def numbersOf (g : Guarantee) (ids : List (Guarantee × Nat)) : List Nat :=
  ids.filterMap fun id => if id.1 = g then some id.2 else none

/-- The publishers of a pool that have been closed, each time that one was. -/
def System.closedOf (s : System) (g : Guarantee) : List Nat :=
  numbersOf g (s.closed ++ s.closedLate)

/-- The publishers of a pool that were only let go of. -/
def System.droppedOf (s : System) (g : Guarantee) : List Nat :=
  numbersOf g s.dropped

/-! ## Both pools are closed -/

theorem Good.shut (h : Good broker config s) (hshut : s.ShutDown) :
    (∀ g, (s.pools g).closed = true) ∧ s.tokens.isCancelled delivery = true := by
  obtain ⟨task, hmem, hcall, result, hgone, hrest⟩ := hshut
  have hended := (h.kept task hmem).obeys
  rw [hrest, hcall] at hended
  obtain ⟨hat, hcomes⟩ : Ended (some .shutdown) result task.hand := hended
  obtain rfl : result = .shut true [.atLeastOnce, .atMostOnce] := hcomes.resolve_left hgone
  obtain ⟨stopped, shut, hhand, hstopped, hshut⟩ := hat
  obtain ⟨hdelivery, hclosed⟩ := h.heard task hmem stopped shut (congrArg Hand.role hhand)
  refine ⟨fun g => hclosed g (hshut g ?_), hdelivery (hstopped rfl)⟩
  cases g <;> simp

/-- A pool that is closed stays so. -/
theorem Good.closed_step (h : Good broker config s) (hclosed : (s.pools g).closed = true) (e : Event) :
    ((s.step broker e).pools g).closed = true := by
  obtain ⟨woken, -, hop⟩ := (step_stepped h e).operated g
  exact hop.closed hclosed

theorem Good.closed_after (h : Good broker config s) (hclosed : (s.pools g).closed = true)
    (events : List Event) : ((s.after broker events).pools g).closed = true := by
  induction events generalizing s with
  | nil => exact hclosed
  | cons e events ih => exact ih (h.stepped (step_stepped h e)) (h.closed_step hclosed e)

/-! ## A publish that comes too late -/

/-- What a publish comes to that gets no publisher. That its token has fired it tells only if it has
waited. -/
inductive Refused (waited : Prop) (cancelled : Bool) : Result → Prop where
  | closed : Refused waited cancelled (.published (.error .poolClosed))
  | cancelled (hwaited : waited) (hc : cancelled = true) :
      Refused waited cancelled (.published (.error .cancelled))
  | gone : Refused waited cancelled .gone

/-- Two more steps of its own end a publish, and it has asked nothing of the connection then. -/
def EndsSoon (s : System) (i : Nat) (cancel : TokenId) (waited : Prop) : Prop :=
  ∀ w w', ∃ task result, ((s.run i w).run i w').tasks[i]? = some task ∧ task.asked = [] ∧
    task.rest = .done result ∧
    Refused waited (((s.run i w).run i w').tokens.isCancelled cancel) result

/-- A publish that gets no publisher has asked nothing of the connection, and has ended, or can go on
and will end soon. -/
structure Refusal (s : System) (i : Nat) (g : Guarantee) (cancel : TokenId) (waited : Prop)
    (task : Task) : Prop where
  silent : task.asked = []
  fate : (∃ next, task.rest = .ask (.pooling (.acquire g cancel)) next ∧ i ∈ s.ready ∧
      EndsSoon s i cancel waited) ∨
    ∃ result, task.rest = .done result ∧ Refused waited (s.tokens.isCancelled cancel) result

/-- Who has no guard cannot publish with it. -/
theorem send_of_no_guard (hget : s.tasks[i]? = some task)
    (hno : ∀ publisher, task.rest ≠ .done (.acquired (.ok publisher))) (publishing : Publishing) :
    s.send i publishing = s := by
  rw [System.send, hget]
  dsimp only
  split
  · rename_i publisher hrest
    exact absurd hrest (hno publisher)
  · rfl

theorem drop_of_no_guard (hget : s.tasks[i]? = some task)
    (hno : ∀ publisher, task.rest ≠ .done (.acquired (.ok publisher))) : s.drop i = s := by
  rw [System.drop, hget]
  dsimp only
  split
  · rename_i publisher _ _ hrest _
    exact absurd hrest (hno publisher)
  · rfl

/-- A task that is done and has no guard stays as it is. -/
theorem Good.done_step (h : Good broker config s) (hget : s.tasks[i]? = some task) {result : Result}
    (hrest : task.rest = .done result) (hresult : ∀ publisher, result ≠ .acquired (.ok publisher))
    (e : Event) :
    ∃ task', (s.step broker e).tasks[i]? = some task' ∧ task'.rest = .done result ∧
      task'.asked = task.asked := by
  have hno : ∀ publisher, task.rest ≠ .done (.acquired (.ok publisher)) := fun publisher heq =>
    hresult publisher (Program.done.inj (hrest.symm.trans heq))
  by_cases he : e.task? = some i
  · cases e with
    | run j w =>
      obtain rfl : j = i := Option.some.inj he
      have hrun : s.run j w = s.finish j task := by
        rw [System.run, hget]
        simp only [hrest]
      simp only [System.step, hrun, System.finish]
      split
      · exact ⟨_, List.getElem?_set_self (List.getElem?_eq_some_iff.mp hget).1, hrest, rfl⟩
      · exact ⟨task, hget, hrest, rfl⟩
    | send j publishing =>
      obtain rfl : j = i := Option.some.inj he
      rw [System.step, send_of_no_guard hget hno]
      exact ⟨task, hget, hrest, rfl⟩
    | drop j =>
      obtain rfl : j = i := Option.some.inj he
      rw [System.step, drop_of_no_guard hget hno]
      exact ⟨task, hget, hrest, rfl⟩
    | abort j =>
      obtain rfl : j = i := Option.some.inj he
      have habort : s.abort j = s := by
        rw [System.abort, hget]
        simp only [hrest]
      exact ⟨task, by rwa [System.step, habort], hrest, rfl⟩
    | start | arrive | cancel | newToken | childToken => cases he
  · exact ⟨task, h.stays hget he, hrest, rfl⟩

/-- What a publish still has to do that has no publisher. -/
theorem Task.Kept.program (h : task.Kept broker) {next : Except PublishError ChannelPublisher →
      Service.Action Result} (hcall : task.call = some (.publish g cancel destination body))
    (hrest : task.rest = .ask (.pooling (.acquire g cancel)) next) :
    task.asked = [] ∧ ∀ e, next (.error e) = .done (.published (.error e)) := by
  obtain ⟨hasked, call, hcall', -, hprogram⟩ := h.fresh g cancel (congrArg Hand.role (h.asking hrest))
  rw [hcall] at hcall'
  obtain rfl := Option.some.inj hcall'
  rw [hrest] at hprogram
  cases hprogram
  exact ⟨hasked, fun e => rfl⟩

/-- A publish that looks for a publisher of a closed pool, and was not overtaken. -/
structure Asks (s : System) (i : Nat) (g : Guarantee) (cancel : TokenId) (waited : Prop)
    (task : Task) : Prop where
  rest : ∃ next, task.rest = .ask (.pooling (.acquire g cancel)) next
  call : ∃ destination body, task.call = some (.publish g cancel destination body)
  closed : (s.pools g).closed = true
  safe : task.look.exposed = false
  awake : i ∉ (s.pools g).available.waiting
  waited : i ∈ (s.pools g).available.known ∨ task.look ≠ .rests → waited

theorem Asks.silent (ha : Asks s i g cancel waited task) (hk : task.Kept broker) : task.asked = [] := by
  obtain ⟨next, hrest⟩ := ha.rest
  obtain ⟨destination, body, hcall⟩ := ha.call
  exact (hk.program hcall hrest).1

/-- It can go on. -/
theorem Asks.ready (ha : Asks s i g cancel waited task) (h : Good broker config s)
    (hget : s.tasks[i]? = some task) : i ∈ s.ready := by
  obtain ⟨next, hrest⟩ := ha.rest
  by_contra hready
  exact ha.awake (h.sleeps hget hrest hready).1

/-- Its next step ends it, unless it is just putting itself down to be woken. -/
theorem Asks.run (ha : Asks s i g cancel waited task) (h : Good broker config s)
    (hget : s.tasks[i]? = some task) (w : Surroundings) :
    ∃ task', (s.run i w).tasks[i]? = some task' ∧ task'.asked = [] ∧
      ((∃ result, task'.rest = .done result ∧
          Refused waited ((s.run i w).tokens.isCancelled cancel) result) ∨
        ∃ took, task.look = .enrolled took ∧ (task'.look = .rests ∨ task'.look = .awake) ∧
          Asks (s.run i w) i g cancel waited task') := by
  obtain ⟨⟨next, hrest⟩, ⟨destination, body, hcall⟩, hclosed, hsafe, hawake, hwaited⟩ := ha
  obtain ⟨hasked, hnext⟩ := (h.kept task (List.mem_of_getElem? hget)).program hcall hrest
  have hlt : i < s.tasks.length := (List.getElem?_eq_some_iff.mp hget).1
  rw [System.run_eq hget hrest]
  simp only [System.answer, System.acquire]
  have hlooked := Pool.step_looked (s.pools g) (Pooling.numbered g) (s.tokens.isCancelled cancel)
    w.cancelFirst i task.look
  generalize (s.pools g).step (Pooling.numbered g) (s.tokens.isCancelled cancel) w.cancelFirst i
    task.look = stepped at hlooked ⊢
  obtain ⟨progress, pool, woken⟩ := stepped
  rcases hlooked.of_closed hclosed ((h.bounded g).emptied hclosed) hsafe hawake with
    rfl | ⟨rfl, hcancelled, hknown⟩ | ⟨took, look, hlook, rfl, hafter⟩
  · exact ⟨_, List.getElem?_set_self hlt, hasked, .inl ⟨_, hnext _, .closed⟩⟩
  · refine ⟨_, List.getElem?_set_self hlt, hasked, .inl ⟨_, hnext _, .cancelled (hwaited hknown) ?_⟩⟩
    show (s.tokens.unregister cancel i).isCancelled cancel = true
    rwa [Tokens.isCancelled_unregister]
  · have hop := Pool.Operated.looked hlooked
    refine ⟨{ task with look }, List.getElem?_set_self hlt, hasked,
      .inr ⟨took, hlook, hafter, ⟨next, hrest⟩, ⟨destination, body, hcall⟩, ?_, ?_, ?_, ?_⟩⟩
    · show (Function.update s.pools g pool g).closed = true
      rw [Function.update_self]
      exact hop.closed hclosed
    · rcases hafter with rfl | rfl <;> rfl
    · show i ∉ (Function.update s.pools g pool g).available.waiting
      rw [Function.update_self]
      intro hw
      rcases hop.waiting hw with hw | ⟨-, hfull, -⟩
      · exact hawake hw
      · rw [hlook] at hfull
        cases hfull
    · exact fun _ => hwaited (.inr (by simp [hlook]))

theorem Refused.mono {waited' : Prop} {cancelled cancelled' : Bool} {result : Result}
    (h : Refused waited cancelled result) (hwaited : waited → waited')
    (hc : cancelled = true → cancelled' = true) : Refused waited' cancelled' result := by
  cases h with
  | closed => exact .closed
  | cancelled hw hcancelled => exact .cancelled (hwaited hw) (hc hcancelled)
  | gone => exact .gone

theorem Refused.not_acquired {cancelled : Bool} {result : Result} (h : Refused waited cancelled result)
    (publisher : ChannelPublisher) : result ≠ .acquired (.ok publisher) := by
  cases h <;> nofun

/-- A token that has fired stays so. -/
theorem Good.cancelled_step (h : Good broker config s) (e : Event)
    (hc : s.tokens.isCancelled cancel = true) :
    (s.step broker e).tokens.isCancelled cancel = true := by
  obtain ⟨token, hget, -⟩ := Tokens.isCancelled_iff.mp hc
  exact (step_stepped h e).heeded.cancelled cancel (List.getElem?_eq_some_iff.mp hget).1 hc

theorem Good.cancelled_after (h : Good broker config s) (hc : s.tokens.isCancelled cancel = true)
    (events : List Event) : (s.after broker events).tokens.isCancelled cancel = true := by
  induction events generalizing s with
  | nil => exact hc
  | cons e events ih => exact ih (h.stepped (step_stepped h e)) (h.cancelled_step e hc)

theorem Asks.endsSoon (ha : Asks s i g cancel waited task) (h : Good broker config s)
    (hget : s.tasks[i]? = some task) : EndsSoon s i cancel waited := by
  intro w w'
  have h' : Good broker config (s.run i w) := h.stepped (step_stepped h (.run i w))
  obtain ⟨task', hget', hasked, ⟨result, hrest, hrefused⟩ | ⟨-, -, hlook, ha'⟩⟩ := ha.run h hget w
  · obtain ⟨task'', hget'', hrest', hasked'⟩ :=
      h'.done_step hget' hrest hrefused.not_acquired (.run i w')
    exact ⟨task'', result, hget'', hasked'.trans hasked, hrest',
      hrefused.mono id (h'.cancelled_step (.run i w'))⟩
  · obtain ⟨task'', hget'', hasked', ⟨result, hdone⟩ | ⟨took, htook, -⟩⟩ := ha'.run h' hget' w'
    · exact ⟨task'', result, hget'', hasked', hdone⟩
    · rw [htook] at hlook
      rcases hlook with hlook | hlook <;> cases hlook

/-- What stays true of a publish that gets no publisher. -/
structure Facing (g : Guarantee) (cancel : TokenId) (waited : Prop) (i : Nat) (s : System)
    (task : Task) : Prop where
  silent : task.asked = []
  fate : Asks s i g cancel waited task ∨
    ∃ result, task.rest = .done result ∧ Refused waited (s.tokens.isCancelled cancel) result

theorem Asks.step (ha : Asks s i g cancel waited task) (h : Good broker config s)
    (hget : s.tasks[i]? = some task) (e : Event) :
    ∃ task', (s.step broker e).tasks[i]? = some task' ∧
      Facing g cancel waited i (s.step broker e) task' := by
  have hsilent := ha.silent (h.kept task (List.mem_of_getElem? hget))
  obtain ⟨next, hrest⟩ := ha.rest
  have hasking : ∀ result, task.rest ≠ .done result := fun result hdone => by
    rw [hrest] at hdone
    cases hdone
  by_cases he : e.task? = some i
  · cases e with
    | run j w =>
      obtain rfl : j = i := Option.some.inj he
      obtain ⟨task', hget', hasked, hdone | ⟨-, -, -, ha'⟩⟩ := ha.run h hget w
      · exact ⟨task', hget', hasked, .inr hdone⟩
      · exact ⟨task', hget', hasked, .inl ha'⟩
    | send j publishing =>
      obtain rfl : j = i := Option.some.inj he
      rw [System.step, send_of_no_guard hget fun publisher => hasking _]
      exact ⟨task, hget, hsilent, .inl ha⟩
    | drop j =>
      obtain rfl : j = i := Option.some.inj he
      rw [System.step, drop_of_no_guard hget fun publisher => hasking _]
      exact ⟨task, hget, hsilent, .inl ha⟩
    | abort j =>
      obtain rfl : j = i := Option.some.inj he
      have hlt : j < s.tasks.length := (List.getElem?_eq_some_iff.mp hget).1
      rw [System.step, System.abort, hget]
      simp only [hrest]
      split
      · exact ⟨_, List.getElem?_set_self hlt, hsilent, .inr ⟨.gone, rfl, .gone⟩⟩
      · exact ⟨task, hget, hsilent, .inl ha⟩
    | start | arrive | cancel | newToken | childToken => cases he
  · -- others may let go of whom the pool knows, but put nobody else down
    have hstepped := step_stepped h e
    have hne : i ≠ e.task?.getD s.tasks.length := by
      cases ht : e.task? with
      | none => exact Nat.ne_of_lt (List.getElem?_eq_some_iff.mp hget).1
      | some j =>
        rw [ht] at he
        exact fun hi => he (congrArg some hi.symm)
    obtain ⟨woken, -, hop⟩ := hstepped.operated g
    refine ⟨task, h.stays hget he, hsilent, .inl ⟨⟨next, hrest⟩, ha.call, hop.closed ha.closed, ha.safe,
      fun hw => ?_, fun hwaited => ha.waited (hwaited.imp_left fun hmem => ?_)⟩⟩
    · exact ha.awake ((hop.waiting hw).resolve_right fun h => hne h.1)
    · exact (hop.roused (h.fair g).nodup).known i hmem hne

theorem Facing.step (hf : Facing g cancel waited i s task) (h : Good broker config s)
    (hget : s.tasks[i]? = some task) (e : Event) :
    ∃ task', (s.step broker e).tasks[i]? = some task' ∧
      Facing g cancel waited i (s.step broker e) task' := by
  rcases hf.fate with ha | ⟨result, hrest, hrefused⟩
  · exact ha.step h hget e
  · obtain ⟨task', hget', hrest', hasked⟩ := h.done_step hget hrest hrefused.not_acquired e
    exact ⟨task', hget', hasked.trans hf.silent,
      .inr ⟨result, hrest', hrefused.mono id (h.cancelled_step e)⟩⟩

theorem Facing.refusal (hf : Facing g cancel waited i s task) (h : Good broker config s)
    (hget : s.tasks[i]? = some task) : Refusal s i g cancel waited task where
  silent := hf.silent
  fate := hf.fate.imp_left fun ha => by
    obtain ⟨next, hrest⟩ := ha.rest
    exact ⟨next, hrest, ha.ready h hget, ha.endsSoon h hget⟩

/-- A publish that was not overtaken when its pool was closed gets no publisher. -/
theorem Asks.refusal_after (ha : Asks s i g cancel waited task) (h : Good broker config s)
    (hget : s.tasks[i]? = some task) (events : List Event) :
    ∃ task', (s.after broker events).tasks[i]? = some task' ∧
      Refusal (s.after broker events) i g cancel waited task' := by
  have hsilent := ha.silent (h.kept task (List.mem_of_getElem? hget))
  obtain ⟨task', hget', hf⟩ := h.follow (P := Facing g cancel waited i)
    (fun s e task h hget hf => hf.step h hget e) hget ⟨hsilent, .inl ha⟩ events
  exact ⟨task', hget', hf.refusal (h.after events) hget'⟩

/-- Who asks a closed pool, and was not overtaken, has not found it open, nor does it sleep there. -/
theorem asks_of_not_overtaken {events : List Event}
    (hclosed : (((System.new config).after broker events).pools g).closed = true)
    (hget : ((System.new config).after broker events).tasks[i]? = some task)
    (hcall : task.call = some (.publish g cancel destination body))
    {next : Except PublishError ChannelPublisher → Service.Action Result}
    (hrest : task.rest = .ask (.pooling (.acquire g cancel)) next)
    (hno : ¬ Overtaken broker config events g i) :
    Asks ((System.new config).after broker events) i g cancel
      (i ∈ (((System.new config).after broker events).pools g).available.known ∨ task.look ≠ .rests)
      task := by
  have hrole := congrArg Hand.role
    (((good_after broker config events).kept task (List.mem_of_getElem? hget)).asking hrest)
  refine ⟨⟨next, hrest⟩, ⟨destination, body, hcall⟩, hclosed, ?_, fun hw => ?_, id⟩
  · by_contra hexposed
    refine hno (overtaken_after broker config events hclosed (.inl ?_))
    rw [System.lookAt_of_get hget, Task.lookAt_of_asking hrole, if_pos rfl]
    exact Bool.not_eq_false _ ▸ hexposed
  · exact hno (overtaken_after broker config events hclosed (.inr hw))

/-- A publish that comes after its pool was closed gets none either, and does not wait. -/
theorem Good.refusal_late (h : Good broker config s) (hclosed : (s.pools g).closed = true)
    (events : List Event) (hlate : s.tasks.length ≤ i)
    (hget : (s.after broker events).tasks[i]? = some task)
    (hcall : task.call = some (.publish g cancel destination body)) :
    Refusal (s.after broker events) i g cancel False task := by
  obtain ⟨before, after, rfl, hnew, hborn⟩ := born_after broker s events hget hcall hlate
  have hbefore : Good broker config (s.after broker before) := h.after before
  have hstepped := step_stepped hbefore (.start (.publish g cancel destination body))
  have hunknown : i ∉ (((s.after broker before).step broker
      (.start (.publish g cancel destination body))).pools g).available.known := by
    have hpools : ((s.after broker before).step broker
        (.start (.publish g cancel destination body))).pools = (s.after broker before).pools := by
      simp only [System.step, System.start]
      split <;> rfl
    rw [hpools]
    intro hmem
    obtain ⟨other, _, hother, -⟩ := hbefore.callers g i hmem
    exact absurd (List.getElem?_eq_some_iff.mp hother).1 (Nat.not_lt_of_le hnew)
  have hasks : Asks ((s.after broker before).step broker
      (.start (.publish g cancel destination body))) i g cancel False
      ((Call.publish g cancel destination body).fresh broker) :=
    ⟨⟨_, rfl⟩, ⟨destination, body, rfl⟩,
      hbefore.closed_step (h.closed_after hclosed before) _, rfl,
      fun hw => hunknown (Notify.mem_known.mpr (.inl hw)),
      fun hwaited => hwaited.elim hunknown fun hlook => hlook rfl⟩
  obtain ⟨task', hget', hrefusal⟩ := hasks.refusal_after (hbefore.stepped hstepped) hborn after
  rw [System.after_append] at hget ⊢
  obtain rfl : task' = task := Option.some.inj (hget'.symm.trans hget)
  exact hrefusal

/-! ## Nothing is under way any more -/

/-- Who is done, and has no guard and closes no publisher, has nothing. -/
theorem Result.At.held_eq_nil {result : Result} {hand : Hand} (h : result.At hand)
    (hresult : ∀ publisher, result ≠ .acquired (.ok publisher)) (hrole : hand.role ≠ .closer) :
    hand.held = [] := by
  cases result with
  | acquired result =>
    cases result with
    | ok publisher => exact absurd rfl (hresult publisher)
    | error e => exact congrArg Hand.held (show hand = ⟨.ended, []⟩ from h)
  | published result => exact congrArg Hand.held (show hand = ⟨.ended, []⟩ from h)
  | shut stopped pools =>
    obtain ⟨_, _, rfl, -⟩ := h
    rfl
  | closed =>
    rcases h with ⟨first, rfl, -⟩ | rfl
    · exact absurd rfl hrole
    · rfl
  | gone => exact congrArg Hand.held (show hand = ⟨.ended, []⟩ from h)

theorem Good.held_of_calm (h : Good broker config s) (hcalm : s.Calm) {task : Task} (hmem : task ∈ s.tasks) : task.hand.held = [] := by
  obtain ⟨i, hget⟩ := List.mem_iff_getElem?.mp hmem
  have hready : i ∉ s.ready := by
    rw [hcalm.ready]
    exact List.not_mem_nil
  cases (h.settled i task hget).resolve_left hready with
  | talks hrest => exact absurd hrest (hcalm.answered task hmem _ _)
  | sleeps hrole hlook hw hl =>
    obtain ⟨-, call, -, hhand, -⟩ := (h.kept task hmem).fresh _ _ hrole
    exact hhand ▸ call.held_hand
  | ended hrest hrole =>
    have hended := (h.kept task hmem).obeys
    rw [hrest] at hended
    refine hended.1.held_eq_nil (fun publisher hresult => ?_) hrole
    exact hcalm.guards task hmem publisher (hresult ▸ hrest)

/-- All publishers have been closed. -/
theorem Good.lodgings_of_calm (h : Good broker config s) (hclosed : ∀ g, (s.pools g).closed = true)
    (hcalm : s.Calm) : s.lodgings = s.retired := by
  have hidle : ∀ g, idleOf g (s.pools g) = [] := fun g => by
    rw [idleOf, (h.bounded g).emptied (hclosed g), List.map_nil]
  have hheld : s.tasks.flatMap (·.hand.lodgings) = [] := List.flatMap_eq_nil_iff.mpr fun task hmem =>
    Hand.lodgings_of_none (h.held_of_calm hcalm hmem)
  rw [System.lodgings, hheld, hidle, hidle]
  rfl

theorem numbersIn_retired (s : System) (g : Guarantee) :
    numbersIn g s.retired = s.closedOf g ++ s.droppedOf g := by
  simp [numbersIn, System.retired, System.closedOf, System.droppedOf, numbersOf, List.filterMap_map,
    Lodging.kind, Function.comp_def]

theorem countedIn_retired (s : System) (g : Guarantee) : countedIn g s.retired = 0 := by
  refine List.countP_eq_zero.mpr fun kind hmem => ?_
  simp only [System.retired, List.map_append, List.map_map, List.mem_append, List.mem_map] at hmem
  obtain (⟨id, -, rfl⟩ | ⟨id, -, rfl⟩) | ⟨id, -, rfl⟩ := hmem <;> exact Bool.false_ne_true

theorem channelsOf_retired (s : System) : channelsOf s.retired = [] := by
  rw [channelsOf, System.retired, List.map_append, List.map_map, List.map_map, List.flatMap_append,
    List.flatMap_map, List.flatMap_map]
  exact List.append_eq_nil_iff.mpr
    ⟨List.flatMap_eq_nil_iff.mpr fun _ _ => rfl, List.flatMap_eq_nil_iff.mpr fun _ _ => rfl⟩

/-- No publisher is closed twice, or closed and let go of, and only such as have been made. -/
theorem Good.closed_once (h : Good broker config s) (g : Guarantee) :
    (s.closedOf g ++ s.droppedOf g).Nodup ∧
      ∀ number ∈ s.closedOf g ++ s.droppedOf g, number < (s.pools g).created := by
  have hnumbers := h.accounted.numbers g
  rw [System.lodgings, numbersIn_append, numbersIn_append, numbersIn_retired] at hnumbers
  have hnodup := hnumbers.nodup_iff.mpr List.nodup_range
  refine ⟨(List.nodup_append.mp (List.nodup_append.mp hnodup).2.1).2.1, fun number hmem => ?_⟩
  exact List.mem_range.mp
    (hnumbers.mem_iff.mp (List.mem_append_right _ (List.mem_append_right _ hmem)))

theorem Good.quiet (h : Good broker config s) (hclosed : ∀ g, (s.pools g).closed = true)
    (hcalm : s.Calm) :
    (∀ g, (s.pools g).size = 0 ∧ (s.pools g).idle = [] ∧
      (s.closedOf g ++ s.droppedOf g).Perm (List.range (s.pools g).created)) ∧ s.channels = [] := by
  have hlodgings := h.lodgings_of_calm hclosed hcalm
  have hsize := h.accounted.size
  have hnumbers := h.accounted.numbers
  have hchannels := h.accounted.channels
  rw [hlodgings] at hsize hnumbers hchannels
  rw [channelsOf_retired] at hchannels
  refine ⟨fun g => ⟨?_, (h.bounded g).emptied (hclosed g), ?_⟩, hchannels.eq_nil⟩
  · rw [hsize, countedIn_retired]
  · rw [← numbersIn_retired]
    exact hnumbers g

/-! ## Late publishers are closed where tasks can be spawned -/

theorem answer_dropped (s : System) (i : Nat) (task : Task) {w : Surroundings} (hw : w.spawns = true)
    (r : Service.Request) : (s.answer i task w r).2.dropped = s.dropped := by
  unfold System.answer
  split
  · split <;> rfl
  · unfold System.acquire
    dsimp only
    split <;> rfl
  · unfold System.putBack
    split <;> rfl
  · rfl
  · rfl
  · rw [System.detach, if_pos hw]
    rfl
  · rfl
  · rfl

theorem run_dropped (s : System) (i : Nat) {w : Surroundings} (hw : w.spawns = true) :
    (s.run i w).dropped = s.dropped := by
  unfold System.run
  split
  · rfl
  · rename_i task _
    split
    · unfold System.finish
      split <;> rfl
    · rename_i r _ _
      have hanswer := answer_dropped s i task hw r
      split <;> rename_i heq <;> rw [heq] at hanswer <;> exact hanswer

theorem step_dropped (broker : Broker) (s : System) {e : Event}
    (hw : ∀ i w, e = .run i w → w.spawns = true) : (s.step broker e).dropped = s.dropped := by
  cases e with
  | run i w => exact run_dropped s i (hw i w rfl)
  | start call =>
    simp only [System.step, System.start]
    split <;> rfl
  | arrive i =>
    simp only [System.step, System.arrive]
    split <;> rfl
  | send i publishing =>
    simp only [System.step, System.send]
    split
    · split <;> rfl
    · rfl
  | drop i =>
    simp only [System.step, System.drop]
    split
    · split <;> rfl
    · rfl
  | abort i =>
    simp only [System.step, System.abort]
    split
    · split
      · split <;> rfl
      · rfl
      · rfl
    · rfl
  | cancel | newToken | childToken => rfl

theorem dropped_after (broker : Broker) (s : System) (events : List Event)
    (hw : ∀ i w, Event.run i w ∈ events → w.spawns = true) :
    (s.after broker events).dropped = s.dropped := by
  induction events generalizing s with
  | nil => rfl
  | cons e events ih =>
    have hstep := step_dropped broker s fun i w he => hw i w (he ▸ List.mem_cons_self)
    exact (ih (s.step broker e) fun i w hmem => hw i w (List.mem_cons_of_mem e hmem)).trans hstep

/-! ## Closing again -/

/-- All that there was is left as it is. -/
structure Unmoved (i : Nat) (s s' : System) : Prop where
  pools : s'.pools = s.pools
  tokens : s'.tokens.tokens = s.tokens.tokens
  channels : s'.channels = s.channels
  closed : s'.closed = s.closed
  closedLate : s'.closedLate = s.closedLate
  dropped : s'.dropped = s.dropped
  others : ∀ x ≠ i, s'.tasks[x]? = s.tasks[x]?

/-- A task that closes pools has found none to be closed. -/
structure Empties (s : System) (task : Task) : Prop where
  pools : ∀ g, (s.pools g).closed = true
  delivery : s.tokens.isCancelled delivery = true
  hand : ∃ stopped shut, task.hand = ⟨.closing stopped shut, []⟩
  silent : task.asked = []

/-- Who closes pools that are closed has nothing to do. -/
theorem Empties.run (he : Empties s task) (h : Good broker config s) (hget : s.tasks[i]? = some task)
    (w : Surroundings) : Unmoved i s (s.run i w) ∧
      ∃ task', (s.run i w).tasks[i]? = some task' ∧ Empties (s.run i w) task' := by
  obtain ⟨hpools, hdelivery, ⟨stopped, shut, hhand⟩, hsilent⟩ := he
  have hlt : i < s.tasks.length := (List.getElem?_eq_some_iff.mp hget).1
  have hothers : ∀ (task' : Task), ∀ x ≠ i, (s.tasks.set i task')[x]? = s.tasks[x]? :=
    fun task' x hx => List.getElem?_set_ne hx.symm
  have hself : ∀ task' : Task, (s.tasks.set i task')[i]? = some task' :=
    fun task' => List.getElem?_set_self hlt
  cases hrest : task.rest with
  | done result =>
    have hrun : s.run i w = s.rest i := by
      rw [System.run, hget]
      simp only [hrest, System.finish, hhand]
    rw [hrun]
    exact ⟨⟨rfl, rfl, rfl, rfl, rfl, rfl, fun _ _ => rfl⟩, task, hget, hpools, hdelivery,
      ⟨stopped, shut, hhand⟩, hsilent⟩
  | ask r next =>
    have hobeys := (h.kept task (List.mem_of_getElem? hget)).obeys
    rw [hrest, hhand] at hobeys
    obtain ⟨_, _, hallowed⟩ := hobeys.allowed
    rw [System.run_eq hget hrest]
    cases hallowed with
    | @drain g =>
      have hnothing := Pool.drain_of_closed (hpools g)
      have hsame : Function.update s.pools g (s.pools g) = s.pools := Function.update_eq_self g s.pools
      simp only [System.answer, System.drain, hnothing, hhand, Role.shutting, List.map_nil,
        List.append_nil, System.setPool, hsame]
      exact ⟨⟨rfl, rfl, rfl, rfl, rfl, rfl, hothers _⟩, _, hself _, hpools, hdelivery,
        ⟨stopped, g :: shut, rfl⟩, hsilent⟩
    | stop =>
      simp only [System.answer, hhand, Role.stopping, System.setTokens,
        Tokens.cancel_of_isCancelled hdelivery]
      exact ⟨⟨rfl, rfl, rfl, rfl, rfl, rfl, hothers _⟩, _, hself _, hpools, hdelivery,
        ⟨true, shut, rfl⟩, hsilent⟩

theorem Empties.step (he : Empties s task) (h : Good broker config s)
    (hget : s.tasks[i]? = some task) (e : Event) :
    ∃ task', (s.step broker e).tasks[i]? = some task' ∧ Empties (s.step broker e) task' := by
  by_cases hi : e.task? = some i
  · obtain ⟨stopped, shut, hhand⟩ := he.hand
    have hguard : ∀ publisher, task.rest ≠ .done (.acquired (.ok publisher)) := fun publisher hrest => by
      obtain ⟨⟨first, hhand', -⟩, -⟩ := h.hand_of_acquired hget hrest
      rw [hhand] at hhand'
      cases hhand'
    cases e with
    | run j w =>
      obtain rfl : j = i := Option.some.inj hi
      exact (he.run h hget w).2
    | send j publishing =>
      obtain rfl : j = i := Option.some.inj hi
      rw [System.step, send_of_no_guard hget hguard]
      exact ⟨task, hget, he⟩
    | drop j =>
      obtain rfl : j = i := Option.some.inj hi
      rw [System.step, drop_of_no_guard hget hguard]
      exact ⟨task, hget, he⟩
    | abort j =>
      obtain rfl : j = i := Option.some.inj hi
      have habort : s.abort j = s := by
        rw [System.abort, hget]
        dsimp only
        split
        · rename_i g cancel next hrest
          have hasking := (h.kept task (List.mem_of_getElem? hget)).asking hrest
          rw [hhand] at hasking
          cases hasking
        · rename_i hborrows
          rw [hhand] at hborrows
          cases hborrows
        · rfl
      rw [System.step, habort]
      exact ⟨task, hget, he⟩
    | start | arrive | cancel | newToken | childToken => cases hi
  · exact ⟨task, h.stays hget hi, fun g => h.closed_step (he.pools g) e,
      h.cancelled_step e he.delivery, he.hand, he.silent⟩

/-- A call that closes pools has nothing to do when they are closed. -/
theorem Good.empties_late (h : Good broker config s) (hshut : s.ShutDown) (events : List Event)
    (hlate : s.tasks.length ≤ i) (hget : (s.after broker events).tasks[i]? = some task) {call : Call}
    (hcall : task.call = some call) (hcloses : call = .shutdown ∨ ∃ g, call = .closePool g) :
    Empties (s.after broker events) task := by
  obtain ⟨before, after, rfl, -, hborn⟩ := born_after broker s events hget hcall hlate
  obtain ⟨hclosed, hdelivery⟩ := h.shut hshut
  have hbefore : Good broker config (s.after broker before) := h.after before
  have hstarted : Empties ((s.after broker before).step broker (.start call)) (call.fresh broker) := by
    refine ⟨fun g => hbefore.closed_step (h.closed_after (hclosed g) before) _,
      hbefore.cancelled_step _ (h.cancelled_after hdelivery before), ⟨false, [], ?_⟩, rfl⟩
    rcases hcloses with rfl | ⟨g, rfl⟩ <;> rfl
  obtain ⟨task', hget', he⟩ := (hbefore.stepped (step_stepped hbefore (.start call))).follow
    (P := Empties) (fun s e task h hget he => he.step h hget e) hborn hstarted after
  rw [System.after_append] at hget ⊢
  obtain rfl : task' = task := Option.some.inj (hget'.symm.trans hget)
  exact he

/-- It goes on until it is done. -/
theorem Empties.goes_on (he : Empties s task) (h : Good broker config s)
    (hget : s.tasks[i]? = some task) : i ∈ s.ready ∨ ∃ result, task.rest = .done result := by
  obtain ⟨stopped, shut, hhand⟩ := he.hand
  refine (h.settled i task hget).imp_right fun hrests => ?_
  cases hrests with
  | talks hrest =>
    have hobeys := (h.kept task (List.mem_of_getElem? hget)).obeys
    rw [hrest, hhand] at hobeys
    obtain ⟨_, _, hallowed⟩ := hobeys.allowed
    cases hallowed
  | sleeps hrole =>
    rw [hhand] at hrole
    cases hrole
  | ended hrest => exact ⟨_, hrest⟩

/-! ## A broker that has been shut down -/

/-- What may be relied on once a shutdown has returned, and before. -/
structure ShutsDown (broker : Broker) (config : PoolConfig) (events : List Event) (s : System) :
    Prop where
  /-- Both pools are closed, and the consumers have been stopped. -/
  shut : s.ShutDown → (∀ g, (s.pools g).closed = true) ∧ s.tokens.isCancelled delivery = true
  /-- Who publishes after a pool has been closed gets no publisher, whatever else happens. -/
  late : ∀ g, (s.pools g).closed = true → ∀ more i task cancel destination body,
    s.tasks.length ≤ i → (s.after broker more).tasks[i]? = some task →
      task.call = some (.publish g cancel destination body) →
        Refusal (s.after broker more) i g cancel False task
  /-- Nor does who waits then for one, or is about to look for one, unless it is overtaken. -/
  waiting : ∀ g, (s.pools g).closed = true → ∀ i task cancel destination body next,
    s.tasks[i]? = some task → task.call = some (.publish g cancel destination body) →
      task.rest = .ask (.pooling (.acquire g cancel)) next → ¬ Overtaken broker config events g i →
        ∀ more, ∃ task', (s.after broker more).tasks[i]? = some task' ∧
          Refusal (s.after broker more) i g cancel
            (i ∈ (s.pools g).available.known ∨ task.look ≠ .rests) task'
  /-- No publisher is closed twice, and only such as have been made. -/
  once : ∀ g, (s.closedOf g ++ s.droppedOf g).Nodup ∧
    ∀ number ∈ s.closedOf g ++ s.droppedOf g, number < (s.pools g).created
  /-- When nothing is under way any more, all have been closed or let go of, and their channels. -/
  quiet : s.ShutDown → s.Calm →
    (∀ g, (s.pools g).size = 0 ∧ (s.pools g).idle = [] ∧
      (s.closedOf g ++ s.droppedOf g).Perm (List.range (s.pools g).created)) ∧ s.channels = []
  /-- None is only let go of, if a task can always be spawned to close it. -/
  spawned : (∀ i w, Event.run i w ∈ events → w.spawns = true) → ∀ g, s.droppedOf g = []
  /-- Who shuts down or closes a pool again goes on to his end, asks nothing of the connection, and
  leaves all as it is. -/
  again : s.ShutDown → ∀ more i task call, s.tasks.length ≤ i →
    (s.after broker more).tasks[i]? = some task → task.call = some call →
      (call = .shutdown ∨ ∃ g, call = .closePool g) →
        task.asked = [] ∧
        (i ∈ (s.after broker more).ready ∨ ∃ result, task.rest = .done result) ∧
        ∀ w, Unmoved i (s.after broker more) ((s.after broker more).run i w)

/-- Whatever is under way when a broker is shut down, and in whatever order it goes on, the shutdown
closes everything, and once. -/
theorem shutDown_after (broker : Broker) (config : PoolConfig) (events : List Event) :
    ShutsDown broker config events ((System.new config).after broker events) := by
  have h := good_after broker config events
  exact {
    shut := h.shut
    late g hclosed more i task cancel destination body hlate hget hcall :=
      h.refusal_late hclosed more hlate hget hcall
    waiting g hclosed i task cancel destination body next hget hcall hrest hno :=
      (asks_of_not_overtaken hclosed hget hcall hrest hno).refusal_after h hget
    once := h.closed_once
    quiet hshut := h.quiet (h.shut hshut).1
    spawned hw g := congrArg (numbersOf g) (dropped_after broker (.new config) events hw)
    again hshut more i task call hlate hget hcall hcloses := by
      have he := h.empties_late hshut more hlate hget hcall hcloses
      have hafter := h.after more
      exact ⟨he.silent, he.goes_on hafter hget, fun w => (he.run hafter hget w).1⟩ }

/-- A guard is dropped after the broker has been shut down, where no task can be spawned. -/
def droppedOutside : List Event :=
  let run (i : Nat) (spawns : Bool) : Event :=
    .run i { session := fun _ => none, cancelFirst := false, spawns }
  [.start (.acquire .atLeastOnce delivery), run 0 true, run 0 true, run 0 true, .start .shutdown] ++
    List.replicate 6 (run 1 true) ++ [.drop 0, run 0 false, run 0 false, run 0 false]

/-- Its publisher is never closed, though nothing is under way any more. -/
theorem not_closed_once :
    ¬ ∀ (broker : Broker) (config : PoolConfig) (events : List Event),
      ((System.new config).after broker events).ShutDown →
        ((System.new config).after broker events).Calm → ∀ g,
          (((System.new config).after broker events).closedOf g).Perm
            (List.range (((System.new config).after broker events).pools g).created) := by
  intro hall
  have hend :
      let s := (System.new { initialSize := 1, maxSize := 1 }).after { connected := true } droppedOutside
      (s.tasks.map fun task => (task.call, task.rest), s.ready, s.closedOf .atLeastOnce,
        (s.pools .atLeastOnce).created) =
      ([(some (.acquire .atLeastOnce delivery), .done .gone),
        (some .shutdown, .done (.shut true [.atLeastOnce, .atMostOnce]))], [], [], 1) := by
    rfl
  obtain ⟨htasks, hready, hclosed, hcreated⟩ : _ ∧ _ ∧ _ ∧ _ := by simpa only [Prod.mk.injEq] using hend
  obtain ⟨guard, others, htasks, hguard, hothers⟩ := List.map_eq_cons_iff.mp htasks
  obtain ⟨stopper, others, rfl, hstopper, hnone⟩ := List.map_eq_cons_iff.mp hothers
  obtain rfl := List.map_eq_nil_iff.mp hnone
  obtain ⟨-, hguard⟩ := Prod.mk.inj hguard
  obtain ⟨hcall, hstopper⟩ := Prod.mk.inj hstopper
  have hdone : ∀ task ∈ [guard, stopper], ∃ result, task.rest = .done result ∧
      ∀ publisher, result ≠ .acquired (.ok publisher) := by
    intro task hmem
    obtain rfl | rfl : task = guard ∨ task = stopper := by simpa using hmem
    · exact ⟨_, hguard, fun _ h => by cases h⟩
    · exact ⟨_, hstopper, fun _ h => by cases h⟩
  rw [← htasks] at hdone
  have hperm := hall _ _ _ ⟨stopper, htasks ▸ by simp, hcall,
      .shut true [.atLeastOnce, .atMostOnce], (fun h => by cases h), hstopper⟩
    ⟨hready, fun task hmem r next hrest => ?_, fun task hmem publisher hrest => ?_⟩ .atLeastOnce
  · rw [hclosed, hcreated] at hperm
    exact absurd hperm.length_eq (by decide)
  all_goals obtain ⟨result, hresult, hno⟩ := hdone task hmem
  · rw [hresult] at hrest
    cases hrest
  · exact hno publisher (Program.done.inj (hresult.symm.trans hrest))

/-- A publish is sending when its broker is shut down: the idle publisher is closed at once, the one
at work when it comes back, with its channel. -/
example (publishing : Publishing) :
    let session : (r : Transport.Request) → Option (Requests.Answer r)
      | .openChannel => some (.ok 7)
      | .publish .. => some (.ok ())
      | .close _ => some (.ok ())
      | .dropChannel _ => some ()
      | _ => none
    let run (i : Nat) : Event := .run i { session, cancelFirst := false }
    let publish : Call := .publish .atMostOnce delivery publishing.destination publishing.body
    let broker : Broker := { connected := true }
    let s := (System.new { initialSize := 1, maxSize := 2 }).after broker
      [.start publish, run 0, run 0, run 0, .start .shutdown, run 1, run 1, run 1, run 1, run 1]
    let s' := s.after broker [run 0, run 0, run 0, run 0, run 2, run 2, run 2]
    (s.closedOf .atLeastOnce, s.closedOf .atMostOnce, s.channels, (s.pools .atMostOnce).size,
      s'.closedOf .atMostOnce, s'.channels, (s'.pools .atMostOnce).size, s'.ready) =
      ([0], [], [7], 1, [0], [], 0, []) := by
  cbv

end Courier.Brokerage
