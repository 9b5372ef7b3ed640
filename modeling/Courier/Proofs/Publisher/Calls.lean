import Courier.Proofs.Lists
import Courier.Proofs.Publisher.Lending

/-!
# Calls on a pool

Any number of calls use one pool at the same time: they borrow publishers, publish, and close the
pool, each by the program that it is. An event lets one call go on to its next request, or by one step
of its look at the pool, or lets go of a guard or of a call that waits. Publishers bear the numbers of
their making here, at which neither the pool nor the programs look, so that one can tell where each
of them is.

`Moved` is what one event can do to the pool and to where its publishers are, and `Tracked`, that every
call stays within the protocol. `step_moved` is the induction step over events.
-/

namespace Courier.Pooling

/-- A call on the pool. One that was lent a publisher and is done is the guard of it. -/
structure Call where
  rest : Action Result
  /-- How far it has come in looking for a publisher. -/
  look : Pool.Look := .rests
  /-- The number of the publisher that it has borrowed. -/
  guard : Option Nat := none
  /-- The numbers of the publishers that it has drained and not closed yet. -/
  drained : List Nat := []

/-- What comes of a request of a call. -/
inductive Reaction.{u} (C : Type u) (α : Type) where
  /-- The call has to wait. -/
  | waits
  /-- There is no answer yet, but the call goes on. -/
  | goesOn (call : C)
  | answered (a : α) (call : C)

/-- The call after a reaction. -/
def Reaction.after.{u} {C : Type u} {α : Type} (call : C) : Reaction C α → C
  | .waits => call
  | .goesOn call => call
  | .answered _ call => call

/-- How the surroundings answer a call that goes on. -/
structure Surroundings where
  session : (r : Transport.Request) → Requests.Answer r
  /-- Has the wait of the call been cancelled? -/
  cancelled : Bool
  /-- Does it see that first, before a wake-up? -/
  cancelFirst : Bool

structure System where
  pool : Pool (Nat × ChannelPublisher)
  calls : List Call := []
  /-- The numbers of the publishers that have been closed, or handed on to be closed. -/
  retired : List Nat := []

inductive Event where
  | acquire (cancel : Nat)
  | publish (cancel : Nat) (publishing : Publishing)
  | closePool
  /-- A call goes on. -/
  | advance (call : Nat) (surroundings : Surroundings)
  /-- A guard is dropped, also that of a publish at work, and its publisher is as it is then. -/
  | drop (call : Nat) (publisher : ChannelPublisher)
  /-- A call goes away that waits for a publisher. -/
  | abandon (call : Nat)

/-- The publisher of a number. -/
def numbered (guarantee : Guarantee) (number : Nat) : Nat × ChannelPublisher :=
  (number, .of guarantee)

namespace System

variable (guarantee : Guarantee) (s : System)

/-- A new pool that nobody has called yet. -/
def new (config : PoolConfig) : System where
  pool := Pool.new config (numbered guarantee)

/-- What comes of a request of a call. -/
def answer (i : Nat) (call : Call) (w : Surroundings) :
    (r : Request) → Reaction Call (Requests.Answer r) × System
  | .session r => (.answered (w.session r) call, s)
  | .acquire .. =>
    let (progress, pool, _) :=
      s.pool.step (numbered guarantee) w.cancelled w.cancelFirst i call.look
    (match progress with
      | .goesOn look => .goesOn { call with look }
      | .comes .waits => .waits
      | .comes (.refused e) => .answered (.error e) { call with look := .rests }
      | .comes (.lent (number, publisher)) =>
        .answered (.ok publisher) { call with guard := some number, look := .rests },
      { s with pool })
  | .putBack _ publisher =>
    match call.guard with
    | none => (.waits, s)
    | some number =>
      let (late, pool, _) := s.pool.putBack (number, publisher)
      (.answered (late.map (·.2)) { call with guard := none },
        { s with pool, retired := s.retired ++ (late.map (·.1)).toList })
  | .drain _ =>
    let (idle, pool, _) := s.pool.drain
    (.answered (idle.map (·.2)) { call with drained := idle.map (·.1) ++ call.drained },
      { s with pool })
  | .shrink _ =>
    (.answered () { call with drained := call.drained.tail },
      { s with pool := s.pool.shrink, retired := s.retired ++ call.drained.head?.toList })
  | .detach _ => (.answered () call, s)

def start (program : Action Result) : System :=
  { s with calls := s.calls ++ [{ rest := program }] }

def setCall (i : Nat) (call : Call) : System :=
  { s with calls := s.calls.set i call }

def advance (i : Nat) (w : Surroundings) : System :=
  match s.calls[i]? with
  | none => s
  | some call =>
    match call.rest with
    | .done _ => s
    | .ask r next =>
      match s.answer guarantee i call w r with
      | (.waits, s) => s
      | (.goesOn call, s) => s.setCall i call
      | (.answered a call, s) => s.setCall i { call with rest := next a }

/-- Who has a guard gives its publisher back and does nothing more. -/
def drop (i : Nat) (publisher : ChannelPublisher) : System :=
  match s.calls[i]? with
  | none => s
  | some call =>
    if call.guard.isSome then
      s.setCall i { call with rest := (release guarantee publisher).bind fun _ => .done .ended }
    else s

def abandon (i : Nat) : System :=
  match s.calls[i]? with
  | none => s
  | some call =>
    match call.rest, call.look with
    | .ask (.acquire ..) _, .rests =>
      { s with pool := (s.pool.abandon i).1 }.setCall i { call with rest := .done .ended }
    | _, _ => s

def step : Event → System
  | .acquire cancel => s.start ((Pooling.acquire guarantee cancel).bind fun r => .done (.acquired r))
  | .publish cancel publishing =>
    s.start ((Pooling.publish guarantee cancel publishing).bind fun r => .done (.published r))
  | .closePool => s.start ((Pooling.closePool guarantee).bind fun _ => .done .ended)
  | .advance i w => s.advance guarantee i w
  | .drop i publisher => s.drop guarantee i publisher
  | .abandon i => s.abandon i

/-- Any interleaving of events. -/
def after (events : List Event) : System :=
  events.foldl (step guarantee) s

/-! ## Where the publishers are -/

/-- The publishers that are idle. -/
def idle : List Nat :=
  s.pool.idle.map (·.1)

/-- The publishers that are lent, one call after the other. -/
def guards : List Nat :=
  s.calls.flatMap (·.guard.toList)

/-- The publishers that were drained and are still to be closed. -/
def drained : List Nat :=
  s.calls.flatMap (·.drained)

end System

/-! ## The stages of the calls -/

/-- What a call has, at each stage. -/
def Call.At (call : Call) : Stage → Prop
  | .free => call.guard = none ∧ call.drained = []
  | .borrowing => call.guard.isSome = true ∧ call.drained = []
  | .closing left => call.guard = none ∧ call.drained.length = left

/-- A call is at a stage, and what is left of it keeps to the protocol from there. Only who wants a
publisher is in the midst of a look. -/
structure Call.Tracks (call : Call) (stage : Stage) : Prop where
  at_stage : call.At stage
  obeys : call.rest.Obeys Moves Result.At stage
  looking : call.look = .rests ∨ ∃ g cancel next, call.rest = .ask (.acquire g cancel) next

theorem Call.Tracks.rests {call : Call} {stage : Stage} (h : call.Tracks stage)
    (hne : ∀ g cancel next, call.rest ≠ .ask (.acquire g cancel) next) : call.look = .rests :=
  h.looking.resolve_right fun ⟨g, cancel, next, hrest⟩ => hne g cancel next hrest

/-- All calls keep to the protocol. -/
def Tracked (s : System) : Prop :=
  ∀ call ∈ s.calls, ∃ stage, call.Tracks stage

variable {guarantee : Guarantee} {s s' : System} {i : Nat} {call call' : Call} {w : Surroundings}

theorem Tracked.setCall (h : Tracked s) (stage : Stage) (hsame : s'.calls = s.calls)
    (ht : call'.Tracks stage) : Tracked (s'.setCall i call') := by
  intro other hother
  rw [System.setCall, hsame] at hother
  rcases List.mem_or_eq_of_mem_set hother with hother | rfl
  · exact h other hother
  · exact ⟨stage, ht⟩

theorem Tracked.start (h : Tracked s) {program : Action Result}
    (hp : program.Obeys Moves Result.At .free) : Tracked (s.start program) := by
  intro other hother
  rcases List.mem_append.mp hother with hother | hother
  · exact h other hother
  · rw [List.mem_singleton.mp hother]
    exact ⟨.free, ⟨rfl, rfl⟩, hp, .inl rfl⟩

/-! ## What an event can do -/

/-- What an event can do to the pool and to where its publishers are. -/
inductive Moved (s s' : System) : Prop where
  | still (hp : Pool.Alike s.pool s'.pool) (hg : s'.guards.Perm s.guards)
      (hd : s'.drained.Perm s.drained) (hr : s'.retired = s.retired)
  | taken {number : Nat} {publisher : ChannelPublisher} {rest : List (Nat × ChannelPublisher)}
      (hidle : s.pool.idle = (number, publisher) :: rest)
      (hp : Pool.Alike { s.pool with idle := rest } s'.pool)
      (hg : s'.guards.Perm (number :: s.guards))
      (hd : s'.drained.Perm s.drained) (hr : s'.retired = s.retired)
  | grown (hsize : s.pool.size < s.pool.maxSize)
      (hp : Pool.Alike
        { s.pool with size := s.pool.size + 1, created := s.pool.created + 1 } s'.pool)
      (hg : s'.guards.Perm (s.pool.created :: s.guards))
      (hd : s'.drained.Perm s.drained) (hr : s'.retired = s.retired)
  | kept {number : Nat} {publisher : ChannelPublisher}
      (hp : Pool.Alike { s.pool with idle := s.pool.idle ++ [(number, publisher)] } s'.pool)
      (hg : s.guards.Perm (number :: s'.guards))
      (hd : s'.drained.Perm s.drained) (hr : s'.retired = s.retired)
  /-- A publisher came back to a closed pool. -/
  | late {number : Nat} (hclosed : s.pool.closed = true) (hp : Pool.Alike s.pool.shrink s'.pool)
      (hg : s.guards.Perm (number :: s'.guards))
      (hd : s'.drained.Perm s.drained) (hr : s'.retired = s.retired ++ [number])
  | emptied (hp : Pool.Alike { s.pool with idle := [], closed := true } s'.pool)
      (hg : s'.guards.Perm s.guards) (hd : s'.drained.Perm (s.idle ++ s.drained))
      (hr : s'.retired = s.retired)
  | shrunk {number : Nat} (hp : Pool.Alike s.pool.shrink s'.pool) (hg : s'.guards.Perm s.guards)
      (hd : s.drained.Perm (number :: s'.drained)) (hr : s'.retired = s.retired ++ [number])

theorem guards_same (h : s.calls[i]? = some call) (hguard : call'.guard = call.guard) :
    (s.setCall i call').guards.Perm s.guards :=
  flatMap_set_add [] h (by rw [hguard]; rfl)

theorem drained_same (h : s.calls[i]? = some call) (hdrained : call'.drained = call.drained) :
    (s.setCall i call').drained.Perm s.drained :=
  flatMap_set_add [] h hdrained

/-- A call that goes on while nothing happens to the publishers. -/
theorem moved_alone (h : s.calls[i]? = some call) {pool : Pool (Nat × ChannelPublisher)}
    (hp : Pool.Alike s.pool pool) (hguard : call'.guard = call.guard)
    (hdrained : call'.drained = call.drained) : Moved s ({ s with pool }.setCall i call') :=
  .still hp (guards_same h hguard) (drained_same h hdrained) rfl

theorem advance_eq {r : Request} {next : Requests.Answer r → Action Result}
    (h : s.calls[i]? = some call) (hrest : call.rest = .ask r next) :
    s.advance guarantee i w =
      match s.answer guarantee i call w r with
      | (.waits, s) => s
      | (.goesOn call, s) => s.setCall i call
      | (.answered a call, s) => s.setCall i { call with rest := next a } := by
  rw [System.advance, h]
  simp only [hrest]

theorem advance_acquire {g : Guarantee} {cancel : Nat}
    {next : Except PublishError ChannelPublisher → Action Result} (ht : Tracked s)
    (h : s.calls[i]? = some call) (hrest : call.rest = .ask (.acquire g cancel) next) :
    Moved s (s.advance guarantee i w) ∧ Tracked (s.advance guarantee i w) := by
  obtain ⟨stage, hat, hobeys, -⟩ := ht call (List.mem_of_getElem? h)
  rw [hrest] at hobeys
  obtain ⟨_, _, hallowed⟩ := hobeys.allowed
  have hfree : stage = .free := by cases hallowed <;> rfl
  subst hfree
  rw [advance_eq h hrest]
  simp only [System.answer]
  have hlooked := Pool.step_looked s.pool (numbered guarantee) w.cancelled w.cancelFirst i call.look
  generalize s.pool.step (numbered guarantee) w.cancelled w.cancelFirst i call.look = stepped
    at hlooked ⊢
  obtain ⟨progress, pool, woken⟩ := stepped
  -- a call that is lent a publisher has the guard of it from then on
  have lent : ∀ number publisher, Tracked ({ s with pool }.setCall i
      { call with guard := some number, look := .rests, rest := next (.ok publisher) }) :=
    fun number publisher =>
      ht.setCall .borrowing rfl ⟨⟨rfl, hat.2⟩, hobeys.next (.lent publisher), .inl rfl⟩
  have hguards : ∀ number look rest,
      (s.setCall i { call with guard := some number, look, rest }).guards.Perm
        (number :: s.guards) := fun number look rest =>
    flatMap_set_add [number] h (by rw [hat.1]; rfl)
  have htried := hlooked.tried
  generalize call.look = look at htried
  cases htried with
  | nothing hno hp =>
    cases progress with
    | goesOn look =>
      exact ⟨moved_alone h hp rfl rfl, ht.setCall .free rfl
        ⟨hat, by rw [hrest]; exact hobeys, .inr ⟨g, cancel, next, hrest⟩⟩⟩
    | comes attempt =>
      cases attempt with
      | lent p => exact absurd rfl (hno p)
      | waits => exact ⟨.still hp .rfl .rfl rfl, ht⟩
      | refused e =>
        exact ⟨moved_alone h hp rfl rfl,
          ht.setCall .free rfl ⟨hat, hobeys.next (.refused e), .inl rfl⟩⟩
  | @taken _ p rest _ hidle hp =>
    exact ⟨.taken hidle hp (hguards _ _ _) (drained_same h rfl) rfl, lent _ _⟩
  | grown hsize =>
    exact ⟨.grown hsize (.refl _) (hguards _ _ _) (drained_same h rfl) rfl, lent _ _⟩

theorem advance_putBack {g : Guarantee} {publisher : ChannelPublisher}
    {next : Option ChannelPublisher → Action Result} (ht : Tracked s)
    (h : s.calls[i]? = some call) (hrest : call.rest = .ask (.putBack g publisher) next) :
    Moved s (s.advance guarantee i w) ∧ Tracked (s.advance guarantee i w) := by
  obtain ⟨stage, htracks⟩ := ht call (List.mem_of_getElem? h)
  have hlook := htracks.rests (by simp [hrest])
  obtain ⟨hat, hobeys, -⟩ := htracks
  rw [hrest] at hobeys
  obtain ⟨_, _, hallowed⟩ := hobeys.allowed
  cases hallowed
  obtain ⟨number, hnumber⟩ := Option.isSome_iff_exists.mp hat.1
  have hguards : ∀ rest, s.guards.Perm
      (number :: (s.setCall i { call with guard := none, rest }).guards) := fun rest =>
    flatMap_set_remove [number] h (by rw [hnumber]; rfl)
  rw [advance_eq h hrest]
  simp only [System.answer, hnumber]
  cases hclosed : s.pool.closed with
  | true =>
    rw [Pool.putBack_of_closed hclosed]
    refine ⟨.late hclosed (.refl _) (hguards _) (drained_same h rfl) rfl, ?_⟩
    exact ht.setCall .free rfl ⟨⟨rfl, hat.2⟩, hobeys.next (.putBack _), .inl hlook⟩
  | false =>
    rw [Pool.putBack_of_open hclosed]
    refine ⟨.kept ⟨rfl, rfl, rfl, rfl, rfl⟩ (hguards _) (drained_same h rfl) (List.append_nil _), ?_⟩
    exact ht.setCall .free rfl ⟨⟨rfl, hat.2⟩, hobeys.next (.putBack _), .inl hlook⟩

theorem advance_drain {g : Guarantee} {next : List ChannelPublisher → Action Result}
    (ht : Tracked s) (h : s.calls[i]? = some call) (hrest : call.rest = .ask (.drain g) next) :
    Moved s (s.advance guarantee i w) ∧ Tracked (s.advance guarantee i w) := by
  obtain ⟨stage, htracks⟩ := ht call (List.mem_of_getElem? h)
  have hlook := htracks.rests (by simp [hrest])
  obtain ⟨hat, hobeys, -⟩ := htracks
  rw [hrest] at hobeys
  obtain ⟨_, _, hallowed⟩ := hobeys.allowed
  cases hallowed
  rw [advance_eq h hrest]
  simp only [System.answer]
  cases hclosed : s.pool.closed with
  | true =>
    rw [Pool.drain_of_closed hclosed]
    refine ⟨moved_alone h (.refl _) rfl rfl, ?_⟩
    exact ht.setCall (.closing 0) rfl ⟨⟨hat.1, by rw [hat.2]; rfl⟩, hobeys.next (.drain []),
      .inl hlook⟩
  | false =>
    rw [Pool.drain_of_open hclosed]
    refine ⟨.emptied ⟨rfl, rfl, rfl, rfl, rfl⟩ (guards_same h rfl)
      (flatMap_set_add s.idle h rfl) rfl, ?_⟩
    refine ht.setCall (.closing (s.pool.idle.map (·.2)).length) rfl ⟨⟨hat.1, ?_⟩,
      hobeys.next (.drain _), .inl hlook⟩
    rw [hat.2, List.append_nil, List.length_map, List.length_map]

theorem advance_shrink {g : Guarantee} {next : Unit → Action Result}
    (ht : Tracked s) (h : s.calls[i]? = some call) (hrest : call.rest = .ask (.shrink g) next) :
    Moved s (s.advance guarantee i w) ∧ Tracked (s.advance guarantee i w) := by
  obtain ⟨stage, htracks⟩ := ht call (List.mem_of_getElem? h)
  have hlook := htracks.rests (by simp [hrest])
  obtain ⟨hat, hobeys, -⟩ := htracks
  rw [hrest] at hobeys
  obtain ⟨_, _, hallowed⟩ := hobeys.allowed
  cases hallowed with
  | @shrink _ left =>
    obtain ⟨number, more, hdrained⟩ := List.exists_cons_of_length_eq_add_one hat.2
    rw [advance_eq h hrest]
    simp only [System.answer, hdrained, List.head?_cons, List.tail_cons, Option.toList_some]
    refine ⟨.shrunk (.refl _) (guards_same h rfl)
      (flatMap_set_remove [number] h (by rw [hdrained]; rfl)) rfl, ?_⟩
    refine ht.setCall (.closing left) rfl ⟨⟨hat.1, ?_⟩, hobeys.next .shrink, .inl hlook⟩
    have hlength := hat.2
    rw [hdrained, List.length_cons] at hlength
    exact Nat.succ.inj hlength

/-- A call goes on to its next request. -/
theorem advance_moved (ht : Tracked s) (i : Nat) (w : Surroundings) :
    Moved s (s.advance guarantee i w) ∧ Tracked (s.advance guarantee i w) := by
  cases h : s.calls[i]? with
  | none =>
    rw [System.advance, h]
    exact ⟨.still (.refl _) .rfl .rfl rfl, ht⟩
  | some call =>
    cases hrest : call.rest with
    | done result =>
      rw [System.advance, h]
      simp only [hrest]
      exact ⟨.still (.refl _) .rfl .rfl rfl, ht⟩
    | ask r next =>
      cases r with
      | acquire => exact advance_acquire ht h hrest
      | putBack => exact advance_putBack ht h hrest
      | drain => exact advance_drain ht h hrest
      | shrink => exact advance_shrink ht h hrest
      | session r =>
        obtain ⟨stage, htracks⟩ := ht call (List.mem_of_getElem? h)
        have hlook := htracks.rests (by simp [hrest])
        obtain ⟨hat, hobeys, -⟩ := htracks
        rw [hrest] at hobeys
        rw [advance_eq h hrest]
        exact ⟨moved_alone h (.refl _) rfl rfl,
          ht.setCall stage rfl ⟨hat, hobeys.next (.session _), .inl hlook⟩⟩
      | detach publisher =>
        obtain ⟨stage, htracks⟩ := ht call (List.mem_of_getElem? h)
        have hlook := htracks.rests (by simp [hrest])
        obtain ⟨hat, hobeys, -⟩ := htracks
        rw [hrest] at hobeys
        rw [advance_eq h hrest]
        exact ⟨moved_alone h (.refl _) rfl rfl,
          ht.setCall stage rfl ⟨hat, hobeys.next .detach, .inl hlook⟩⟩

theorem drop_moved (ht : Tracked s) (i : Nat) (publisher : ChannelPublisher) :
    Moved s (s.drop guarantee i publisher) ∧ Tracked (s.drop guarantee i publisher) := by
  unfold System.drop
  split
  · exact ⟨.still (.refl _) .rfl .rfl rfl, ht⟩
  · rename_i call h
    split
    · rename_i hguard
      obtain ⟨stage, htracks⟩ := ht call (List.mem_of_getElem? h)
      have hat := htracks.at_stage
      have hborrowing : stage = .borrowing := by
        cases stage with
        | borrowing => rfl
        | _ => rw [hat.1] at hguard; cases hguard
      subst hborrowing
      -- who has a guard does not want another
      have hlook : call.look = .rests := htracks.rests fun g cancel next hrest => by
        have hobeys := htracks.obeys
        rw [hrest] at hobeys
        obtain ⟨_, _, hallowed⟩ := hobeys.allowed
        cases hallowed
      refine ⟨moved_alone h (.refl _) rfl rfl, ht.setCall .borrowing rfl ⟨hat, ?_, .inl hlook⟩⟩
      exact ((obeys_release publisher).mono fun _ stage hstage => .inl hstage).bind
    · exact ⟨.still (.refl _) .rfl .rfl rfl, ht⟩

theorem abandon_moved (ht : Tracked s) (i : Nat) :
    Moved s (s.abandon i) ∧ Tracked (s.abandon i) := by
  unfold System.abandon
  split
  · exact ⟨.still (.refl _) .rfl .rfl rfl, ht⟩
  · rename_i call h
    split
    · rename_i hrest hlook
      obtain ⟨stage, hat, hobeys, -⟩ := ht call (List.mem_of_getElem? h)
      rw [hrest] at hobeys
      obtain ⟨_, _, hallowed⟩ := hobeys.allowed
      have hfree : stage = .free := by cases hallowed <;> rfl
      subst hfree
      exact ⟨moved_alone h (Pool.alike_abandon _ _) rfl rfl, ht.setCall .free rfl
        ⟨hat, .inl rfl, .inl hlook⟩⟩
    · exact ⟨.still (.refl _) .rfl .rfl rfl, ht⟩

theorem start_moved (ht : Tracked s) {program : Action Result}
    (hp : program.Obeys Moves Result.At .free) :
    Moved s (s.start program) ∧ Tracked (s.start program) := by
  have hguards : (s.start program).guards = s.guards := by simp [System.guards, System.start]
  have hdrained : (s.start program).drained = s.drained := by simp [System.drained, System.start]
  exact ⟨.still (.refl _) (.of_eq hguards) (.of_eq hdrained) rfl, ht.start hp⟩

/-- One event. -/
theorem step_moved (ht : Tracked s) (e : Event) :
    Moved s (s.step guarantee e) ∧ Tracked (s.step guarantee e) := by
  cases e with
  | acquire cancel =>
    exact start_moved ht (obeys_acquire cancel (fun publisher => rfl) fun e => rfl)
  | publish cancel publishing =>
    exact start_moved ht ((obeys_publish cancel publishing).mono fun _ _ h => h).bind
  | closePool => exact start_moved ht (obeys_closePool.mono fun _ _ h => .inr h).bind
  | advance i w => exact advance_moved ht i w
  | drop i publisher => exact drop_moved ht i publisher
  | abandon i => exact abandon_moved ht i

theorem tracked_new (config : PoolConfig) (guarantee : Guarantee) :
    Tracked (.new guarantee config) :=
  fun _ hmem => by cases hmem

theorem Tracked.after (ht : Tracked s) (events : List Event) : Tracked (s.after guarantee events) := by
  induction events generalizing s with
  | nil => exact ht
  | cons e events ih => exact ih (step_moved ht e).2

end Courier.Pooling
