import Courier.Proofs.Publisher.Searching

/-!
# Each publisher is in one place

A publisher that a pool has made is idle, or lent to one call, or drained and still to be closed, or
it has been given up; the size of the pool counts the first three (`Accounted`). For that, an event
matters only by how many publishers are held after it (`Counted`). So a pool is never larger than it
may be, and no call takes a publisher with it when it ends: a pool that is not closed has lent just
those of its publishers that are not idle. `orderly_after` says so of all calls in all interleavings.
-/

namespace Courier.Pooling

variable {config : PoolConfig} {guarantee : Guarantee} {s s' : System}

/-- The publishers that have not been given up. -/
def System.held (s : System) : List Nat :=
  s.idle ++ s.guards ++ s.drained

theorem System.held_perm {idle guards drained : List Nat} (hidle : s.idle = idle)
    (hguards : s.guards.Perm guards) (hdrained : s.drained.Perm drained) :
    s.held.Perm (idle ++ guards ++ drained) := by
  subst hidle
  exact (hguards.append_left _).append hdrained

theorem System.idle_eq {idle : List (Nat × ChannelPublisher)} (h : s.pool.idle = idle) :
    s.idle = idle.map (·.1) :=
  congrArg (List.map _) h

/-! ## What an event does to the publishers that are held -/

/-- An event moves publishers that are held from one place to another, or makes one more, or gives one
up. The size follows. -/
inductive Counted (s s' : System) : Prop where
  | same (hheld : s'.held.Perm s.held) (hretired : s'.retired = s.retired)
      (hsize : s'.pool.size = s.pool.size) (hcreated : s'.pool.created = s.pool.created)
  | more (hroom : s.pool.size < s.pool.maxSize)
      (hheld : s'.held.Perm (s.pool.created :: s.held)) (hretired : s'.retired = s.retired)
      (hsize : s'.pool.size = s.pool.size + 1) (hcreated : s'.pool.created = s.pool.created + 1)
  | less {number : Nat} (hclosing : s.pool.closed = true ∨ s.drained ≠ [])
      (hheld : s.held.Perm (number :: s'.held)) (hretired : s'.retired = s.retired ++ [number])
      (hsize : s'.pool.size = s.pool.size - 1) (hcreated : s'.pool.created = s.pool.created)

theorem Moved.counted (hm : Moved s s') : Counted s s' := by
  cases hm with
  | still hp hg hd hr =>
    exact .same (System.held_perm (System.idle_eq hp.idle) hg hd) hr hp.size hp.created
  | @taken number publisher rest hidle hp hg hd hr =>
    have hbefore : s.held = number :: (rest.map (·.1) ++ s.guards) ++ s.drained := by
      rw [System.held, System.idle_eq hidle]
      rfl
    refine .same ((System.held_perm (System.idle_eq hp.idle) hg hd).trans ?_) hr hp.size hp.created
    rw [hbefore]
    exact List.perm_middle.append_right _
  | grown hsize hp hg hd hr =>
    exact .more hsize ((System.held_perm (System.idle_eq hp.idle) hg hd).trans
      (List.perm_middle.append_right _)) hr hp.size hp.created
  | @kept number publisher hp hg hd hr =>
    have hafter : s'.held = s.idle ++ number :: s'.guards ++ s'.drained := by
      rw [System.held, System.idle_eq hp.idle, List.map_append, List.append_cons]
      rfl
    refine .same ?_ hr hp.size hp.created
    rw [hafter]
    exact (System.held_perm rfl hg hd.symm).symm
  | @late number hclosed hp hg hd hr =>
    have hafter : s'.held = s.idle ++ s'.guards ++ s'.drained := by
      rw [System.held, System.idle_eq hp.idle]
      rfl
    refine .less (.inl hclosed) ((System.held_perm rfl hg hd.symm).trans ?_) hr hp.size hp.created
    rw [hafter]
    exact List.perm_middle.append_right _
  | emptied hp hg hd hr =>
    refine .same ((System.held_perm (System.idle_eq hp.idle) hg hd).trans ?_) hr hp.size hp.created
    rw [System.held, List.append_assoc s.idle]
    exact List.perm_append_comm_assoc ..
  | @shrunk number hp hg hd hr =>
    have hafter : s'.held = s.idle ++ s'.guards ++ s'.drained := by
      rw [System.held, System.idle_eq hp.idle]
      rfl
    refine .less (.inr fun hnone => ?_) ((System.held_perm rfl hg.symm hd).trans ?_) hr hp.size
      hp.created
    · rw [hnone] at hd
      exact absurd hd.length_eq (by simp)
    · rw [hafter]
      exact List.perm_middle

theorem Moved.maxSize (hm : Moved s s') : s'.pool.maxSize = s.pool.maxSize := by
  cases hm with
  | still hp => exact hp.maxSize
  | taken _ hp => exact hp.maxSize
  | grown _ hp => exact hp.maxSize
  | kept hp => exact hp.maxSize
  | late _ hp => exact hp.maxSize
  | emptied hp => exact hp.maxSize
  | shrunk hp => exact hp.maxSize

/-- A pool that is not closed has not been closed before, and nothing was drained or given up. -/
theorem Moved.opened (hm : Moved s s') (hopen : s'.pool.closed = false)
    (hnone : s.pool.closed = false → s.drained = []) :
    s.pool.closed = false ∧ s'.drained = [] ∧ s'.retired = s.retired := by
  have same : s'.pool.closed = s.pool.closed → s'.drained.Perm s.drained →
      s'.retired = s.retired →
      s.pool.closed = false ∧ s'.drained = [] ∧ s'.retired = s.retired := by
    intro hclosed hd hr
    rw [hopen] at hclosed
    exact ⟨hclosed.symm, (hnone hclosed.symm ▸ hd).eq_nil, hr⟩
  cases hm with
  | still hp _ hd hr => exact same hp.closed hd hr
  | taken _ hp _ hd hr => exact same hp.closed hd hr
  | grown _ hp _ hd hr => exact same hp.closed hd hr
  | kept hp _ hd hr => exact same hp.closed hd hr
  | late hclosed hp =>
    rw [hp.closed] at hopen
    exact absurd (hclosed.symm.trans hopen) (by decide)
  | emptied hp => rw [hp.closed] at hopen; cases hopen
  | shrunk hp _ hd =>
    -- there is nothing to be closed as long as the pool is open
    rw [hp.closed] at hopen
    rw [hnone hopen] at hd
    exact absurd hd.length_eq (by simp)

/-! ## The account of the publishers -/

/-- Each publisher is in one place, and the size counts those that have not been given up. -/
structure Accounted (config : PoolConfig) (s : System) : Prop where
  places : (s.held ++ s.retired).Perm (List.range s.pool.created)
  size : s.pool.size = s.held.length
  maxSize : s.pool.maxSize = config.normalized.maxSize
  size_le : s.pool.size ≤ s.pool.maxSize
  /-- Nothing is drained or given up before the pool is closed. -/
  opened : s.pool.closed = false → s.drained = [] ∧ s.retired = []

theorem accounted_new (config : PoolConfig) (guarantee : Guarantee) :
    Accounted config (.new guarantee config) := by
  have hheld : (System.new guarantee config).held = List.range config.normalized.initialSize := by
    simp [System.held, System.idle, System.guards, System.drained, System.new, Pool.new, numbered,
      Function.comp_def]
  refine ⟨?_, ?_, rfl, config.initialSize_le_maxSize_normalized, fun _ => ⟨rfl, rfl⟩⟩
  · rw [hheld]
    exact .of_eq (List.append_nil _)
  · rw [hheld, List.length_range]
    rfl

theorem System.length_held (s : System) :
    s.held.length = s.idle.length + s.guards.length + s.drained.length := by
  rw [System.held, List.length_append, List.length_append]

/-- A pool that is not closed has lent all publishers that are not idle. -/
theorem Accounted.lent (h : Accounted config s) (hopen : s.pool.closed = false) :
    s.pool.size - s.pool.idle.length = s.guards.length := by
  have hidle : s.idle.length = s.pool.idle.length := List.length_map _
  rw [h.size, s.length_held, (h.opened hopen).1, List.length_nil]
  omega

/-- No publisher is lost or doubled. -/
theorem Accounted.places_moved (h : Accounted config s) (hm : Moved s s') :
    (s'.held ++ s'.retired).Perm (List.range s'.pool.created) := by
  cases hm.counted with
  | same hheld hretired hsize hcreated =>
    rw [hretired, hcreated]
    exact (hheld.append_right _).trans h.places
  | more hroom hheld hretired hsize hcreated =>
    rw [hretired, hcreated, List.range_succ]
    exact ((hheld.append_right _).trans (h.places.cons _)).trans (List.perm_append_singleton ..).symm
  | less hclosing hheld hretired hsize hcreated =>
    rw [hretired, hcreated, ← List.append_assoc]
    exact ((List.perm_append_singleton ..).trans (hheld.append_right _).symm).trans h.places

theorem Accounted.size_moved (h : Accounted config s) (hm : Moved s s') :
    s'.pool.size = s'.held.length := by
  cases hm.counted with
  | same hheld hretired hsize => rw [hsize, h.size, hheld.length_eq]
  | more hroom hheld hretired hsize =>
    rw [hsize, h.size, hheld.length_eq, List.length_cons]
  | less hclosing hheld hretired hsize =>
    rw [hsize, h.size, hheld.length_eq, List.length_cons, Nat.add_sub_cancel]

theorem Accounted.size_le_moved (h : Accounted config s) (hm : Moved s s') :
    s'.pool.size ≤ s'.pool.maxSize := by
  rw [hm.maxSize]
  cases hm.counted with
  | same hheld hretired hsize => exact hsize ▸ h.size_le
  | more hroom hheld hretired hsize => exact hsize ▸ hroom
  | less hclosing hheld hretired hsize => exact hsize ▸ Nat.le_trans (Nat.sub_le _ _) h.size_le

theorem Accounted.moved (h : Accounted config s) (hm : Moved s s') : Accounted config s' where
  places := h.places_moved hm
  size := h.size_moved hm
  maxSize := hm.maxSize.trans h.maxSize
  size_le := h.size_le_moved hm
  opened hopen := by
    obtain ⟨hopen', hdrained, hretired⟩ := hm.opened hopen fun hopen => (h.opened hopen).1
    exact ⟨hdrained, hretired.trans (h.opened hopen').2⟩

/-- A pool does not become smaller until it is closed, and grows only if there may be more. -/
theorem Accounted.size_step (h : Accounted config s) (hm : Moved s s') :
    (s.pool.closed = false → s.pool.size ≤ s'.pool.size) ∧
      (s.pool.created < s'.pool.created → s.pool.size < s.pool.maxSize) := by
  cases hm.counted with
  | same hheld hretired hsize hcreated =>
    exact ⟨fun _ => Nat.le_of_eq hsize.symm, fun hlt => absurd hcreated (Nat.ne_of_gt hlt)⟩
  | more hroom hheld hretired hsize hcreated =>
    exact ⟨fun _ => hsize ▸ Nat.le_succ _, fun _ => hroom⟩
  | less hclosing hheld hretired hsize hcreated =>
    refine ⟨fun hopen => ?_, fun hlt => absurd hcreated (Nat.ne_of_gt hlt)⟩
    rcases hclosing with hclosed | hdrained
    · exact absurd (hclosed.symm.trans hopen) (by decide)
    · exact absurd (h.opened hopen).1 hdrained

/-! ## All calls -/

theorem Accounted.after (h : Accounted config s) (ht : Tracked s) (events : List Event) :
    Accounted config (s.after guarantee events) := by
  induction events generalizing s with
  | nil => exact h
  | cons e events ih =>
    obtain ⟨hm, ht'⟩ : Moved s (s.step guarantee e) ∧ _ := step_moved ht e
    exact ih (h.moved hm) ht'

/-- A call that is done has the guard of a publisher if it was lent one, and no other has. -/
theorem Tracked.guard_of_done (ht : Tracked s) {call : Call} (hmem : call ∈ s.calls)
    {result : Result} (hrest : call.rest = .done result) :
    call.guard.isSome = true ↔ ∃ publisher, result = .acquired (.ok publisher) := by
  obtain ⟨stage, hat, hobeys⟩ := ht call hmem
  rw [hrest] at hobeys
  replace hobeys : result.At stage := hobeys
  have hnone : stage ≠ .borrowing → call.guard = none := fun hne => by
    cases stage with
    | borrowing => exact absurd rfl hne
    | _ => exact hat.1
  cases result with
  | acquired result =>
    cases result with
    | ok publisher =>
      obtain rfl : stage = .borrowing := hobeys
      exact ⟨fun _ => ⟨publisher, rfl⟩, fun _ => hat.1⟩
    | error e =>
      obtain rfl : stage = .free := hobeys
      simp [hnone]
  | published result =>
    obtain rfl : stage = .free := hobeys
    simp [hnone]
  | ended =>
    obtain rfl | rfl : stage = .free ∨ stage = .closing 0 := hobeys <;> simp [hnone]

/-- What the users of a pool can rely on, after these events. -/
structure Orderly (config : PoolConfig) (guarantee : Guarantee) (events : List Event) (s : System) :
    Prop where
  /-- Each publisher that was made is idle, lent to one call, drained and still to be closed, or
  given up; and none is in two of these places. -/
  places : (s.idle ++ s.guards ++ s.drained ++ s.retired).Perm (List.range s.pool.created)
  size : s.pool.size = s.idle.length + s.guards.length + s.drained.length
  bounds : s.pool.size ≤ config.normalized.maxSize ∧ 1 ≤ config.normalized.initialSize ∧
    config.normalized.initialSize ≤ config.normalized.maxSize
  /-- As long as the pool is not closed, the publishers that are not idle are those with guards. -/
  lent : s.pool.closed = false → s.pool.size - s.pool.idle.length = s.guards.length
  /-- Whatever a publish comes to, it leaves no guard; a borrower has one until it is dropped. -/
  ended : ∀ call ∈ s.calls, ∀ result, call.rest = .done result →
    (call.guard.isSome = true ↔ ∃ publisher, result = .acquired (.ok publisher))
  /-- The size does not decrease before the pool is closed. -/
  grows : ∀ e, s.pool.closed = false → s.pool.size ≤ (s.step guarantee e).pool.size
  /-- A publisher is made only for a call that found none idle when it looked, and only if there may
  be more. None is idle then either, if no other call came in between. -/
  makes : ∀ e, s.pool.created < (s.step guarantee e).pool.created →
    s.pool.size < config.normalized.maxSize ∧
      ∃ i w, e = .advance i w ∧ FoundNone config guarantee events i

theorem Accounted.orderly (h : Accounted config s) (ht : Tracked s) {events : List Event}
    (hs : s = (System.new guarantee config).after guarantee events) :
    Orderly config guarantee events s where
  places := h.places
  size := h.size.trans s.length_held
  bounds := ⟨h.maxSize ▸ h.size_le, config.one_le_initialSize_normalized,
    config.initialSize_le_maxSize_normalized⟩
  lent := h.lent
  ended _ hmem _ hrest := ht.guard_of_done hmem hrest
  grows e := (h.size_step (step_moved ht e).1).1
  makes e hlt := by
    obtain ⟨i, w, call, he, hget, hbare⟩ := created_of_step hlt
    refine ⟨h.maxSize ▸ (h.size_step (step_moved ht e).1).2 hlt, i, w, he, ?_⟩
    exact foundNone_after config guarantee events (hs ▸ hget) hbare

/-- Whatever calls use a pool, and however they interleave, its publishers stay in order. -/
theorem orderly_after (config : PoolConfig) (guarantee : Guarantee) (events : List Event) :
    Orderly config guarantee events ((System.new guarantee config).after guarantee events) :=
  ((accounted_new config guarantee).after (tracked_new config guarantee) events).orderly
    ((tracked_new config guarantee).after events) rfl

/-- A pool of at most two publishers lends both, and a third call waits for the first to come back. -/
example (session : (r : Transport.Request) → Requests.Answer r) :
    let look (i steps : Nat) : List Event :=
      List.replicate steps (.advance i { session, cancelled := false, cancelFirst := false })
    let s := (System.new .atLeastOnce { initialSize := 1, maxSize := 2 }).after .atLeastOnce
      ([.acquire 0, .acquire 0, .acquire 0] ++ look 0 2 ++ look 1 3 ++ look 2 6)
    let s' := s.after .atLeastOnce ([.drop 0 (.of .atLeastOnce)] ++ look 0 1 ++ look 2 2)
    (s.guards, s'.guards, s'.idle, s'.pool.created) = ([0, 1], [1, 0], [], 2) := by
  cbv

end Courier.Pooling
