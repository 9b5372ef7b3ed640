import Courier.Proofs.Brokerage.Following

/-!
# Which calls wait

A call that waits for a publisher is ready, or sleeps in the pool and listens to its token. As long
as one sleeps in an open pool, the pool is full, and to each idle publisher a call is under way that is
ready: one that was woken and has not looked yet, or one that is about to look what is idle. A wake-up
that reaches a call which is let go of, or whose wait is cancelled, passes to the next, and a newcomer
that takes the idle publisher leaves the one who was woken for it to look and sleep again.

So when no task can go on, a call that still waits for a publisher of an open pool has nothing to go on
with. Not so for a closed one: a call looks whether the pool is closed, and puts itself down to be
woken, in different steps, and if the pool is closed between them, the call sleeps although all that
slept have been woken (`not_stranded`). `wakeful_after` says of all tasks on both pools, in all
interleavings of their steps, that this is the one way to sleep for nothing: the call has been
overtaken.
-/

namespace Courier.Brokerage

variable {broker : Broker} {config : PoolConfig} {s : System} {i : Nat} {task : Task} {g : Guarantee}
  {cancel : TokenId} {next : Except PublishError ChannelPublisher → Service.Action Result}
  {events : List Event}

/-- Nothing that a call waits for has come. -/
structure Stranded (config : PoolConfig) (s : System) (g : Guarantee) (cancel : TokenId) : Prop where
  opened : (s.pools g).closed = false
  unavailable : (s.pools g).idle = []
  full : (s.pools g).size = config.normalized.maxSize
  live : s.tokens.isCancelled cancel = false

/-- The pool was closed after the call had found it open, and before it was down to be woken. -/
def Overtaken (broker : Broker) (config : PoolConfig) (events : List Event) (g : Guarantee) (i : Nat) :
    Prop :=
  ∃ before e after, events = before ++ e :: after ∧
    (((System.new config).after broker before).pools g).closed = false ∧
    (((System.new config).after broker (before ++ [e])).pools g).closed = true ∧
    (((System.new config).after broker before).lookAt g i).exposed = true

/-- What a call that waits may rely on. -/
structure Wakeful (broker : Broker) (config : PoolConfig) (events : List Event) (s : System) :
    Prop where
  /-- When no task can go on, a call that still waits could not have gone on, unless it was overtaken
  by who closed the pool. -/
  waits : s.ready = [] → ∀ i task, s.tasks[i]? = some task → ∀ g cancel next,
    task.rest = .ask (.pooling (.acquire g cancel)) next →
      Stranded config s g cancel ∨
      ((s.pools g).closed = true ∧ s.tokens.isCancelled cancel = false ∧
        Overtaken broker config events g i)
  /-- As long as a call sleeps in an open pool, as many are under way as there are idle publishers, and
  these can go on. -/
  woken : ∀ g, (s.pools g).closed = false → ∀ i ∈ (s.pools g).available.waiting,
    s.lookAt g i = .rests →
      ∃ openers : List Nat, openers.Nodup ∧ (∀ x ∈ openers, s.lookAt g x = .opened) ∧
        (s.pools g).idle.length ≤ (s.pools g).available.handed.length + openers.length ∧
        ∀ x ∈ (s.pools g).available.handed ++ openers, x ∈ s.ready

/-! ## An open pool -/

/-- A task that waits for a publisher asks for it. -/
theorem Task.Kept.asking (h : task.Kept broker)
    (hrest : task.rest = .ask (.pooling (.acquire g cancel)) next) :
    task.hand = ⟨.asking g cancel, []⟩ := by
  have hobeys := h.obeys
  rw [hrest] at hobeys
  obtain ⟨_, _, hallowed⟩ := hobeys.allowed
  generalize task.hand = hand at hallowed
  cases hallowed <;> rfl

/-- A task that asks for a publisher waits for it. -/
theorem Task.Kept.waits (h : task.Kept broker) (hrole : task.hand.role = .asking g cancel) :
    ∃ next, task.rest = .ask (.pooling (.acquire g cancel)) next := by
  obtain ⟨-, call, -, hhand, hprogram⟩ := h.fresh g cancel hrole
  rw [hprogram]
  rw [← hhand] at hrole
  cases call with
  | acquire | publish =>
    cases hrole
    exact ⟨_, rfl⟩
  | closePool | shutdown => cases hrole

/-- A call that is not ready sleeps, and listens to its token. -/
theorem Good.sleeps (h : Good broker config s) (hget : s.tasks[i]? = some task)
    (hrest : task.rest = .ask (.pooling (.acquire g cancel)) next) (hready : i ∉ s.ready) :
    i ∈ (s.pools g).available.waiting ∧ s.lookAt g i = .rests ∧ s.tokens.Listening cancel i := by
  have hhand := (h.kept task (List.mem_of_getElem? hget)).asking hrest
  cases (h.settled i task hget).resolve_left hready with
  | talks htalks =>
    rw [hrest] at htalks
    cases htalks
  | ended hdone =>
    rw [hrest] at hdone
    cases hdone
  | sleeps hrole hlook hw hl =>
    rw [hhand] at hrole
    cases hrole
    exact ⟨hw, (System.lookAt_of_get hget g).trans (Task.lookAt_of_rests hlook g), hl⟩

/-- A task in the midst of a look is ready. -/
theorem Good.looking_ready (h : Good broker config s) (hlook : s.lookAt g i ≠ .rests) :
    i ∈ s.ready := by
  by_contra hready
  cases hget : s.tasks[i]? with
  | none => exact hlook (s.lookAt_of_none hget g)
  | some task =>
    rw [System.lookAt_of_get hget] at hlook
    by_cases hrole : ∃ g' cancel, task.hand.role = .asking g' cancel
    · obtain ⟨g', cancel, hrole⟩ := hrole
      obtain ⟨next, hrest⟩ := (h.kept task (List.mem_of_getElem? hget)).waits hrole
      have hrests := (h.sleeps hget hrest hready).2.1
      rw [System.lookAt_of_get hget, Task.lookAt_of_asking hrole, if_pos rfl] at hrests
      exact hlook (Task.lookAt_of_rests hrests g)
    · exact hlook (Task.lookAt_of_role (fun g' cancel hasking => hrole ⟨g', cancel, hasking⟩) g)

theorem Good.woken (h : Good broker config s) (hopen : (s.pools g).closed = false)
    (hw : i ∈ (s.pools g).available.waiting) (hlook : s.lookAt g i = .rests) :
    ∃ openers : List Nat, openers.Nodup ∧ (∀ x ∈ openers, s.lookAt g x = .opened) ∧
      (s.pools g).idle.length ≤ (s.pools g).available.handed.length + openers.length ∧
      ∀ x ∈ (s.pools g).available.handed ++ openers, x ∈ s.ready := by
  obtain ⟨openers, hnodup, hway, hcovered⟩ := (h.fair g).covered hopen i hw hlook
  refine ⟨openers, hnodup, hway, hcovered, fun x hx => ?_⟩
  rcases List.mem_append.mp hx with hx | hx
  · exact h.roused g x (List.mem_append_left _ hx)
  · exact h.looking_ready (by rw [hway x hx]; nofun)

theorem Good.stranded (h : Good broker config s) (hready : s.ready = [])
    (hget : s.tasks[i]? = some task)
    (hrest : task.rest = .ask (.pooling (.acquire g cancel)) next)
    (hopen : (s.pools g).closed = false) : Stranded config s g cancel := by
  obtain ⟨hw, hlook, hl⟩ := h.sleeps hget hrest (by rw [hready]; exact List.not_mem_nil)
  obtain ⟨openers, -, -, hcovered, hgo⟩ := h.woken hopen hw hlook
  -- nobody is ready, so nobody is under way
  have hnobody : (s.pools g).available.handed ++ openers = [] := by
    rw [hready] at hgo
    exact List.eq_nil_iff_forall_not_mem.mpr fun x hx => List.not_mem_nil (hgo x hx)
  rw [← List.length_append, hnobody] at hcovered
  have hfull := (h.fair g).full (List.ne_nil_of_mem hw) hopen
  have hsize := (h.bounded g).size_le
  rw [(h.bounded g).maxSize] at hfull hsize
  exact ⟨hopen, List.length_eq_zero_iff.mp (Nat.le_zero.mp hcovered), Nat.le_antisymm hsize hfull,
    hl.live⟩

/-! ## A closed pool -/

theorem Overtaken.concat (h : Overtaken broker config events g i) (e : Event) :
    Overtaken broker config (events ++ [e]) g i := by
  obtain ⟨before, e', after, rfl, hopen, hclosed, hlook⟩ := h
  exact ⟨before, e', after ++ [e], by rw [List.append_assoc, List.cons_append], hopen, hclosed, hlook⟩

/-- Who sleeps in a closed pool, or is about to lie down in it, has been overtaken. -/
theorem overtaken_after (broker : Broker) (config : PoolConfig) (events : List Event)
    (hclosed : (((System.new config).after broker events).pools g).closed = true)
    (hi : (((System.new config).after broker events).lookAt g i).exposed = true ∨
      i ∈ (((System.new config).after broker events).pools g).available.waiting) :
    Overtaken broker config events g i := by
  induction events using List.reverseRecOn with
  | nil => cases hclosed
  | append_singleton events e ih =>
    have hs := step_stepped (good_after broker config events) e
    obtain ⟨woken, -, hop⟩ := hs.operated g
    have happend := System.after_append broker (System.new config) events [e]
    have hlooks := hs.looks g i
    rw [happend] at hi
    change (System.lookAt (System.step _ _ e) g i).exposed = true ∨
      i ∈ ((System.step _ _ e).pools g).available.waiting at hi
    have hthen := hclosed
    rw [happend] at hthen
    change ((System.step _ _ e).pools g).closed = true at hthen
    cases hbefore : (((System.new config).after broker events).pools g).closed with
    | true =>
      refine (ih hbefore ?_).concat e
      by_cases hie : i = e.task?.getD ((System.new config).after broker events).tasks.length
      · rw [← hie] at hop
        exact hop.exposed hbefore hi
      · rw [hlooks hie] at hi
        exact hi.imp_right fun hw => (hop.waiting hw).resolve_right fun h => hie h.1
    | false =>
      -- the pool has just been closed, and nobody sleeps in it
      obtain ⟨hnobody, hsame⟩ := hop.shut hbefore hthen
      rw [hnobody] at hi
      refine ⟨events, e, [], rfl, hbefore, hclosed, ?_⟩
      by_cases hie : i = e.task?.getD ((System.new config).after broker events).tasks.length
      · rw [← hie] at hsame
        rw [← hsame]
        exact hi.resolve_right List.not_mem_nil
      · rw [← hlooks hie]
        exact hi.resolve_right List.not_mem_nil

/-! ## Any pool -/

/-- Whatever is done with the pools, and in whatever order, no call waits that could go on, unless
it was overtaken. -/
theorem wakeful_after (broker : Broker) (config : PoolConfig) (events : List Event) :
    Wakeful broker config events ((System.new config).after broker events) := by
  have h := good_after broker config events
  refine ⟨fun hready i task hget g cancel next hrest => ?_, fun g hopen i hw hlook =>
    h.woken hopen hw hlook⟩
  cases hclosed : (((System.new config).after broker events).pools g).closed with
  | false => exact .inl (h.stranded hready hget hrest hclosed)
  | true =>
    obtain ⟨hw, -, hl⟩ := h.sleeps hget hrest (by rw [hready]; exact List.not_mem_nil)
    exact .inr ⟨rfl, hl.live, overtaken_after broker config events hclosed (.inr hw)⟩

/-- A pool of one publisher, which is lent, is closed when a second call has found it open, and full. -/
def overtaking : List Event :=
  let call : Call := .acquire .atLeastOnce delivery
  let run (i : Nat) : Event := .run i { session := fun _ => none, cancelFirst := false }
  [.start call, run 0, run 0, run 0, .start call, run 1, run 1, run 1,
    .start (.closePool .atLeastOnce), run 2, run 2, run 1, run 1, run 1,
    .drop 0, run 0, run 0, run 0, run 3]

/-- The second call sleeps then, and nothing is left that could wake it. -/
theorem not_stranded :
    ¬ ∀ (broker : Broker) (config : PoolConfig) (events : List Event),
      ((System.new config).after broker events).ready = [] →
        ∀ task ∈ ((System.new config).after broker events).tasks, ∀ g cancel next,
          task.rest = .ask (.pooling (.acquire g cancel)) next →
            Stranded config ((System.new config).after broker events) g cancel := by
  intro hall
  have hasleep :
      let s := (System.new { initialSize := 1, maxSize := 1 }).after { connected := true } overtaking
      (s.ready, (s.pools .atLeastOnce).closed, (s.pools .atLeastOnce).available.waiting) =
        ([], true, [1]) := by
    rfl
  obtain ⟨hready, hclosed, hwaiting⟩ : _ ∧ _ ∧ _ := by simpa only [Prod.mk.injEq] using hasleep
  have hgood := good_after { connected := true } { initialSize := 1, maxSize := 1 } overtaking
  have hknown := Notify.mem_known.mpr (.inl (hwaiting ▸ List.mem_singleton_self 1))
  obtain ⟨task, cancel, hget, hrole⟩ := hgood.callers .atLeastOnce 1 hknown
  have hmem := List.mem_of_getElem? hget
  obtain ⟨next, hrest⟩ := (hgood.kept task hmem).waits hrole
  have hopen := (hall _ _ _ hready task hmem _ _ _ hrest).opened
  exact absurd (hclosed.symm.trans hopen) (by decide)

/-- Three calls on a pool of one publisher: the second is woken for it and let go of, and its wake-up
passes to the third. -/
example (session : (r : Transport.Request) → Option (Requests.Answer r)) :
    let w : Surroundings := { session, cancelFirst := true }
    let call : Call := .acquire .atLeastOnce delivery
    let look (i : Nat) : List Event := List.replicate 6 (.run i w)
    let s := (System.new { initialSize := 1, maxSize := 1 }).after { connected := true }
      ([.start call, .start call, .start call, .run 0 w, .run 0 w] ++ look 1 ++ look 2 ++ [.run 0 w])
    let s' := s.after { connected := true } [.drop 0, .run 0 w, .abort 1]
    (s.ready, (s.pools .atLeastOnce).available.waiting, s'.ready) = ([], [1, 2], [0, 2]) := by
  cbv

end Courier.Brokerage
