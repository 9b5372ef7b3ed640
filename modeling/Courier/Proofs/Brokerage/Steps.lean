import Courier.Proofs.Brokerage.Lodgings
import Courier.Proofs.Publisher.Waiting
import Courier.Proofs.Tokens

/-!
# One event

`Stepped i` is what one event does that the task `i` has a part in: how it moves publishers, what it
does to the pools, and what it leaves alone of all other tasks. `Good` is all that holds in between,
and lasts (`Good.stepped`): the tasks keep to their protocol, the publishers are accounted for, the
pools are fair to the tasks as far as these have come, and a task that is not ready waits for the
connection, sleeps in a pool and listens to its token, or is over (`Rests`). So a task in the midst of
a look is ready. The pools know only tasks that ask for a publisher, and whom they have woken is ready.
-/

namespace Courier.Brokerage

variable {broker : Broker} {config : PoolConfig} {s s' : System} {i : Nat} {task task' : Task}

/-- How far a task has come in looking for a publisher of a pool. -/
def Task.lookAt (task : Task) (g : Guarantee) : Pool.Look :=
  match task.hand.role with
  | .asking g' _ => if g' = g then task.look else .rests
  | _ => .rests

def System.lookAt (s : System) (g : Guarantee) (i : Nat) : Pool.Look :=
  match s.tasks[i]? with
  | some task => task.lookAt g
  | none => .rests

/-- Why a task need not go on. -/
inductive Rests (s : System) (i : Nat) (task : Task) : Prop where
  | talks {r : Transport.Request} {next : Requests.Answer r → Service.Action Result}
      (h : task.rest = .ask (.pooling (.session r)) next)
  | sleeps {g : Guarantee} {cancel : TokenId} (hrole : task.hand.role = .asking g cancel)
      (hlook : task.look = .rests) (hw : i ∈ (s.pools g).available.waiting) (hl : s.tokens.Listening cancel i)
  | ended {result : Result} (h : task.rest = .done result) (hrole : task.hand.role ≠ .closer)

/-- What a task has that has come to this, and may come to it. -/
def Ended (call : Option Call) (result : Result) (hand : Hand) : Prop :=
  result.At hand ∧ (result = .gone ∨ Call.Comes call result)

/-- A task keeps to the protocol, and one that has not got a publisher yet is at its beginning. -/
structure Task.Kept (broker : Broker) (task : Task) : Prop where
  obeys : task.rest.Obeys Moves (Ended task.call) task.hand
  fresh : ∀ g cancel, task.hand.role = .asking g cancel → task.asked = [] ∧
    ∃ call : Call, task.call = some call ∧ call.hand = task.hand ∧ task.rest = call.program broker

/-- Who has stopped the consumers has done so, and the pools that it has closed are closed. -/
def Task.Heard (s : System) (task : Task) : Prop :=
  ∀ stopped shut, task.hand.role = .closing stopped shut →
    (stopped = true → s.tokens.isCancelled delivery = true) ∧ ∀ g ∈ shut, (s.pools g).closed = true

/-- All that holds between two events. -/
structure Good (broker : Broker) (config : PoolConfig) (s : System) : Prop where
  kept : ∀ task ∈ s.tasks, task.Kept broker
  tokens : ∀ task ∈ s.tasks, ∀ g cancel, task.hand.role = .asking g cancel → s.tokens.Exists cancel
  heard : ∀ task ∈ s.tasks, task.Heard s
  there : s.tokens.Exists delivery
  accounted : Accounted s
  bounded : ∀ g, Pool.Bounded config (s.pools g)
  fair : ∀ g, (s.pools g).Fair (s.lookAt g)
  callers : ∀ g, ∀ i ∈ (s.pools g).available.known, ∃ task cancel,
    s.tasks[i]? = some task ∧ task.hand.role = .asking g cancel
  roused : ∀ g, ∀ i ∈ (s.pools g).available.woken, i ∈ s.ready
  settled : ∀ i task, s.tasks[i]? = some task → i ∈ s.ready ∨ Rests s i task

/-- The wake-ups of an event reach those whom they are for. -/
def Operated (i : Nat) (s s' : System) : Prop :=
  ∀ g, ∃ woken, (∀ x ∈ woken, x ∈ s'.ready) ∧
    Pool.Operated (Pooling.numbered g) i (s.lookAt g i) (s'.lookAt g i) (s.pools g) (s'.pools g)
      woken

/-- No task but `i` is kept from going on, and those that listen to a token go on listening until they
are woken. -/
structure Heeded (i : Nat) (s s' : System) : Prop where
  ready : ∀ x ≠ i, x ∈ s.ready → x ∈ s'.ready
  tokens : ∀ id, s.tokens.Exists id → s'.tokens.Exists id
  cancelled : ∀ id, s.tokens.Exists id → s.tokens.isCancelled id = true →
    s'.tokens.isCancelled id = true
  listening : ∀ id, ∀ x ≠ i, s.tokens.Listening id x → s'.tokens.Listening id x ∨ x ∈ s'.ready

/-- What a task may rely on that has a part in an event. -/
structure Task.Fits (broker : Broker) (s : System) (i : Nat) (task : Task) : Prop where
  kept : task.Kept broker
  tokens : ∀ g cancel, task.hand.role = .asking g cancel → s.tokens.Exists cancel
  heard : task.Heard s
  settled : i ∈ s.ready ∨ Rests s i task

/-- What an event does. -/
structure Stepped (broker : Broker) (i : Nat) (s s' : System) : Prop where
  moved : Moved s s'
  operated : Operated i s s'
  others : ∀ x ≠ i, x < s.tasks.length → s'.tasks[x]? = s.tasks[x]?
  looks : ∀ g, ∀ x ≠ i, s'.lookAt g x = s.lookAt g x
  itself : ∀ x task, s'.tasks[x]? = some task → x = i ∨ s.tasks.length ≤ x → task.Fits broker s' x
  heeded : Heeded i s s'
  known : ∀ g, i ∈ (s'.pools g).available.known →
    (i ∈ (s'.pools g).available.woken → i ∈ s'.ready) ∧
      ∃ task cancel, s'.tasks[i]? = some task ∧ task.hand.role = .asking g cancel

theorem Task.Heard.mono (h : task.Heard s) (hdelivery : s.tokens.Exists delivery)
    (hheeded : Heeded i s s') (hclosed : ∀ g, (s.pools g).closed = true → (s'.pools g).closed = true) :
    task.Heard s' := fun stopped shut hrole =>
  ⟨fun hstopped => hheeded.cancelled delivery hdelivery ((h stopped shut hrole).1 hstopped),
    fun g hg => hclosed g ((h stopped shut hrole).2 g hg)⟩

/-- A task rests on while others go on, or is woken. -/
theorem Rests.stepped {x : Nat} (h : Rests s x task) (hfair : ∀ g, (s.pools g).Fair (s.lookAt g))
    (hs : Stepped broker i s s') (hx : x ≠ i) : x ∈ s'.ready ∨ Rests s' x task := by
  cases h with
  | talks h => exact .inr (.talks h)
  | ended h hrole => exact .inr (.ended h hrole)
  | @sleeps g cancel hrole hlook hw hl =>
    obtain ⟨woken, hwoken, hop⟩ := hs.operated g
    rcases (hop.roused (hfair g).nodup).asleep x hw hx with hw | hmem
    · rcases hs.heeded.listening cancel x hx hl with hl | hready
      · exact .inr (.sleeps hrole hlook hw hl)
      · exact .inl hready
    · exact .inl (hwoken x hmem)

theorem Good.stepped (h : Good broker config s) (hs : Stepped broker i s s') :
    Good broker config s' := by
  -- whoever is not concerned was there before
  have hall : ∀ x task, s'.tasks[x]? = some task →
      task.Fits broker s' x ∨ x ≠ i ∧ s.tasks[x]? = some task := by
    intro x task hget
    by_cases hx : x = i ∨ s.tasks.length ≤ x
    · exact .inl (hs.itself x task hget hx)
    · rw [not_or, Nat.not_le] at hx
      rw [hs.others x hx.1 hx.2] at hget
      exact .inr ⟨hx.1, hget⟩
  have hpool : ∀ g, (s.pools g).closed = true → (s'.pools g).closed = true := fun g => by
    obtain ⟨woken, -, hop⟩ := hs.operated g
    exact hop.closed
  have hdelivery := hs.heeded.tokens delivery h.there
  refine ⟨?_, ?_, ?_, hdelivery, h.accounted.moved hs.moved hpool, ?_, ?_, ?_, ?_, ?_⟩
  · intro task hmem
    obtain ⟨x, hget⟩ := List.mem_iff_getElem?.mp hmem
    rcases hall x task hget with hfits | ⟨-, hbefore⟩
    · exact hfits.kept
    · exact h.kept task (List.mem_of_getElem? hbefore)
  · intro task hmem g cancel hrole
    obtain ⟨x, hget⟩ := List.mem_iff_getElem?.mp hmem
    rcases hall x task hget with hfits | ⟨-, hbefore⟩
    · exact hfits.tokens g cancel hrole
    · exact hs.heeded.tokens cancel (h.tokens task (List.mem_of_getElem? hbefore) g cancel hrole)
  · intro task hmem
    obtain ⟨x, hget⟩ := List.mem_iff_getElem?.mp hmem
    rcases hall x task hget with hfits | ⟨-, hbefore⟩
    · exact hfits.heard
    · exact (h.heard task (List.mem_of_getElem? hbefore)).mono h.there hs.heeded hpool
  · intro g
    obtain ⟨woken, -, hop⟩ := hs.operated g
    exact hop.bounded (h.bounded g)
  · intro g
    obtain ⟨woken, -, hop⟩ := hs.operated g
    exact hop.fair (h.fair g) (hs.looks g)
  · intro g x hknown
    by_cases hx : x = i
    · subst hx
      exact (hs.known g hknown).2
    · obtain ⟨woken, -, hop⟩ := hs.operated g
      obtain ⟨task, cancel, hget, hrole⟩ :=
        h.callers g x ((hop.roused (h.fair g).nodup).known x hknown hx)
      refine ⟨task, cancel, ?_, hrole⟩
      rw [hs.others x hx (List.getElem?_eq_some_iff.mp hget).1]
      exact hget
  · intro g x hwoken
    by_cases hx : x = i
    · subst hx
      exact (hs.known g (Notify.mem_known.mpr (.inr hwoken))).1 hwoken
    · obtain ⟨woken, hready, hop⟩ := hs.operated g
      rcases (hop.roused (h.fair g).nodup).awake x hwoken with hwoken | hmem
      · exact hs.heeded.ready x hx (h.roused g x hwoken)
      · exact hready x hmem
  · intro x task hget
    rcases hall x task hget with hfits | ⟨hx, hbefore⟩
    · exact hfits.settled
    · rcases h.settled x task hbefore with hready | hrests
      · exact .inl (hs.heeded.ready x hx hready)
      · exact hrests.stepped h.fair hs hx

theorem good_new (broker : Broker) (config : PoolConfig) : Good broker config (.new config) where
  kept _ hmem := by cases hmem
  tokens _ hmem := by cases hmem
  heard _ hmem := by cases hmem
  there := Nat.one_pos
  accounted := accounted_new config
  bounded g := Pool.bounded_new config _
  fair g := Pool.fair_new config _ _ fun _ => rfl
  callers _ _ hmem := by cases hmem
  roused _ _ hmem := by cases hmem
  settled _ _ hget := by cases hget

/-! ## How far the tasks have come -/

theorem Task.lookAt_of_role (hrole : ∀ g cancel, task.hand.role ≠ .asking g cancel) (g : Guarantee) :
    task.lookAt g = .rests := by
  unfold Task.lookAt
  split
  · rename_i g' cancel hasking
    exact absurd hasking (hrole g' cancel)
  · rfl

theorem Task.lookAt_of_rests (hlook : task.look = .rests) (g : Guarantee) :
    task.lookAt g = .rests := by
  unfold Task.lookAt
  split
  · split
    · exact hlook
    · rfl
  · rfl

theorem Task.lookAt_of_asking {g : Guarantee} {cancel : TokenId}
    (hrole : task.hand.role = .asking g cancel) (g' : Guarantee) :
    task.lookAt g' = if g = g' then task.look else .rests := by
  rw [Task.lookAt, hrole]

theorem System.lookAt_of_get (hget : s.tasks[i]? = some task) (g : Guarantee) :
    s.lookAt g i = task.lookAt g := by
  rw [System.lookAt, hget]

theorem System.lookAt_of_none (hnone : s.tasks[i]? = none) (g : Guarantee) :
    s.lookAt g i = .rests := by
  rw [System.lookAt, hnone]

/-- A task that comes has not looked yet. -/
theorem lookAt_spawn (hlook : task.look = .rests) (g : Guarantee) (x : Nat) :
    (s.spawn task).lookAt g x = s.lookAt g x := by
  have htasks : (s.spawn task).tasks = s.tasks ++ [task] := rfl
  by_cases hlt : x < s.tasks.length
  · rw [System.lookAt, System.lookAt, htasks, List.getElem?_append_left hlt]
  · rw [s.lookAt_of_none (List.getElem?_eq_none (Nat.le_of_not_lt hlt))]
    cases hget : (s.spawn task).tasks[x]? with
    | none => exact System.lookAt_of_none hget g
    | some other =>
      rw [System.lookAt_of_get hget]
      rw [htasks, List.getElem?_append_right (Nat.le_of_not_lt hlt)] at hget
      obtain rfl : other = task := List.mem_singleton.mp (List.mem_of_getElem? hget)
      exact Task.lookAt_of_rests hlook g

/-- One task is set, and those that come with it ask for no publisher. -/
theorem lookAt_set {more : List Task} (htasks : s'.tasks = s.tasks.set i task' ++ more)
    (hmore : ∀ task ∈ more, ∀ g cancel, task.hand.role ≠ .asking g cancel) (g : Guarantee) {x : Nat}
    (hx : x ≠ i) : s'.lookAt g x = s.lookAt g x := by
  by_cases hlt : x < s.tasks.length
  · rw [System.lookAt, System.lookAt, htasks, List.getElem?_append_left (by rwa [List.length_set]),
      List.getElem?_set_ne hx.symm]
  · rw [s.lookAt_of_none (List.getElem?_eq_none (Nat.le_of_not_lt hlt))]
    cases hget : s'.tasks[x]? with
    | none => exact s'.lookAt_of_none hget g
    | some task =>
      rw [System.lookAt_of_get hget]
      rw [htasks, List.getElem?_append_right (by rw [List.length_set]; exact Nat.le_of_not_lt hlt)]
        at hget
      exact Task.lookAt_of_role (hmore task (List.mem_of_getElem? hget)) g

/-! ## Those that can go on -/

@[simp] theorem mem_ready_wake (s : System) (tasks : List Nat) (x : Nat) :
    x ∈ (s.wake tasks).ready ↔ x ∈ s.ready ∨ x ∈ tasks :=
  List.mem_union_iff

@[simp] theorem mem_ready_rest (s : System) (i x : Nat) :
    x ∈ (s.rest i).ready ↔ x ∈ s.ready ∧ x ≠ i := by
  simp [System.rest]

theorem Heeded.refl (i : Nat) (s : System) : Heeded i s s :=
  ⟨fun _ _ h => h, fun _ h => h, fun _ _ h => h, fun _ _ _ h => .inl h⟩

/-- The tokens stay as they are. -/
theorem heeded_of_tokens (htokens : s'.tokens = s.tokens)
    (hready : ∀ x ≠ i, x ∈ s.ready → x ∈ s'.ready) : Heeded i s s' :=
  ⟨hready, fun _ h => htokens ▸ h, fun _ _ h => htokens ▸ h, fun _ _ _ h => .inl (htokens ▸ h)⟩

theorem heeded_cancel (i : Nat) (s : System) (token : TokenId) :
    Heeded i s (s.setTokens (s.tokens.cancel token)) := by
  have hfired := Tokens.fired_cancel s.tokens token
  refine ⟨fun x _ hmem => (mem_ready_wake ..).mpr (.inl hmem), fun id hid => ?_,
    fun id _ hc => hfired.isCancelled hc, fun id x _ hl => ?_⟩
  · exact Nat.lt_of_lt_of_eq hid hfired.length.symm
  · exact (hfired.listening hl).imp_right fun hmem => (mem_ready_wake ..).mpr (.inr hmem)

/-! ## Events of tasks that ask for no publisher -/

/-- The operations concern no waiter. -/
def Passed (s s' : System) : Prop :=
  ∀ g, ∃ woken, (∀ x ∈ woken, x ∈ s'.ready) ∧
    ∀ j look, Pool.Operated (Pooling.numbered g) j look look (s.pools g) (s'.pools g) woken

theorem passed_of_pools (h : s'.pools = s.pools) : Passed s s' := fun g =>
  ⟨[], nofun, fun j look => by rw [h]; exact .none⟩

/-- One pool is operated on, and whom it wakes goes on. -/
theorem passed_setPool {g : Guarantee} {pool : Pool (Nat × ChannelPublisher)} {woken : List Nat}
    (hpools : s'.pools = Function.update s.pools g pool) (hwoken : ∀ x ∈ woken, x ∈ s'.ready)
    (hop : ∀ j look, Pool.Operated (Pooling.numbered g) j look look (s.pools g) pool woken) :
    Passed s s' := by
  intro g'
  by_cases hg : g' = g
  · subst hg
    refine ⟨woken, hwoken, ?_⟩
    rw [hpools, Function.update_self]
    exact hop
  · refine ⟨[], nofun, fun j look => ?_⟩
    rw [hpools, Function.update_of_ne hg]
    exact .none

/-- Whom no pool knew, none knows. -/
theorem Passed.unknown (h : Passed s s') (hfair : ∀ g, (s.pools g).Fair (s.lookAt g))
    (hi : ∀ g, i ∉ (s.pools g).available.known) (g : Guarantee) :
    i ∉ (s'.pools g).available.known := by
  obtain ⟨woken, -, hop⟩ := h g
  intro hmem
  exact hi g (((hop (i + 1) .rests).roused (hfair g).nodup).known i hmem
    (Nat.ne_of_lt (Nat.lt_succ_self i)))

/-- A pool knows no task that does not ask for a publisher. -/
theorem Good.unknown (h : Good broker config s) (hget : s.tasks[i]? = some task)
    (hrole : ∀ g cancel, task.hand.role ≠ .asking g cancel) (g : Guarantee) :
    i ∉ (s.pools g).available.known := by
  intro hmem
  obtain ⟨task', cancel, hget', hrole'⟩ := h.callers g i hmem
  rw [hget] at hget'
  cases hget'
  exact hrole g cancel hrole'

/-- What a task that asks for no publisher may rely on. -/
theorem Task.fits_of_role (hrole : ∀ g cancel, task.hand.role ≠ .asking g cancel)
    (hobeys : task.rest.Obeys Moves (Ended task.call) task.hand) (hheard : task.Heard s)
    (hsettled : i ∈ s.ready ∨ Rests s i task) : task.Fits broker s i :=
  ⟨⟨hobeys, fun g cancel h => absurd h (hrole g cancel)⟩, fun g cancel h => absurd h (hrole g cancel),
    hheard, hsettled⟩

/-- What a task may rely on that closes no pools either. -/
theorem Task.fits_of_plain (hrole : ∀ g cancel, task.hand.role ≠ .asking g cancel)
    (hclosing : ∀ stopped shut, task.hand.role ≠ .closing stopped shut)
    (hobeys : task.rest.Obeys Moves (Ended task.call) task.hand)
    (hsettled : i ∈ s.ready ∨ Rests s i task) : task.Fits broker s i :=
  Task.fits_of_role hrole hobeys (fun stopped shut h => absurd h (hclosing stopped shut)) hsettled

theorem Task.Heard.of_role (h : task.Heard s) (hrole : task'.hand.role = task.hand.role) :
    task'.Heard s :=
  fun stopped shut hclosing => h stopped shut (hrole ▸ hclosing)

/-- An event of a task that asked for no publisher and asks for none. -/
theorem Good.stepped_on (h : Good broker config s) (hget : s.tasks[i]? = some task)
    (hrole : ∀ g cancel, task.hand.role ≠ .asking g cancel)
    (more : List Task) (htasks : s'.tasks = s.tasks.set i task' ++ more)
    (hrole' : ∀ g cancel, task'.hand.role ≠ .asking g cancel)
    (hnone : ∀ task ∈ more, ∀ g cancel, task.hand.role ≠ .asking g cancel) (hfits : task'.Fits broker s' i)
    (hmore : ∀ x task, s'.tasks[x]? = some task → s.tasks.length ≤ x → task.Fits broker s' x)
    (hmoved : Moved s s') (hpassed : Passed s s') (hheeded : Heeded i s s') :
    Stepped broker i s s' where
  moved := hmoved
  operated g := by
    obtain ⟨woken, hwoken, hop⟩ := hpassed g
    have hget' : s'.tasks[i]? = some task' := by
      have hlt : i < s.tasks.length := (List.getElem?_eq_some_iff.mp hget).1
      rw [htasks, List.getElem?_append_left (by rwa [List.length_set]), List.getElem?_set_self hlt]
    refine ⟨woken, hwoken, ?_⟩
    rw [System.lookAt_of_get hget, System.lookAt_of_get hget', Task.lookAt_of_role hrole,
      Task.lookAt_of_role hrole']
    exact hop i .rests
  looks g x hx := lookAt_set htasks hnone g hx
  others x hx hlt := by
    rw [htasks, List.getElem?_append_left (by rwa [List.length_set]), List.getElem?_set_ne hx.symm]
  itself x other hget' hx := by
    rcases hx with rfl | hx
    · have hlt : x < s.tasks.length := (List.getElem?_eq_some_iff.mp hget).1
      rw [htasks, List.getElem?_append_left (by rwa [List.length_set]),
        List.getElem?_set_self hlt] at hget'
      cases hget'
      exact hfits
    · exact hmore x other hget' hx
  heeded := hheeded
  known g hmem := absurd hmem (hpassed.unknown h.fair (h.unknown hget hrole) g)

/-- The same, when there are no more tasks after it. -/
theorem Good.stepped_alone (h : Good broker config s) (hget : s.tasks[i]? = some task)
    (hrole : ∀ g cancel, task.hand.role ≠ .asking g cancel)
    (htasks : s'.tasks = s.tasks.set i task')
    (hrole' : ∀ g cancel, task'.hand.role ≠ .asking g cancel) (hfits : task'.Fits broker s' i)
    (hmoved : Moved s s') (hpassed : Passed s s') (hheeded : Heeded i s s') :
    Stepped broker i s s' := by
  refine h.stepped_on hget hrole [] (htasks.trans (List.append_nil _).symm) hrole' nofun hfits
    (fun x other hget' hx => ?_) hmoved hpassed hheeded
  have hlt := (List.getElem?_eq_some_iff.mp hget').1
  rw [htasks, List.length_set] at hlt
  exact absurd hlt (Nat.not_lt_of_le hx)

end Courier.Brokerage
