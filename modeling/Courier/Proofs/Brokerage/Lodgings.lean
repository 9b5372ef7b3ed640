import Courier.Proofs.Brokerage.System

/-!
# Where the publishers are

Every publisher that a pool has made lodges somewhere: it is idle, lent, about to be handed on,
drained, being closed late, closed, or dropped. `System.lodgings` lists them all, each with the channel that
is open with it. What an event does to them is said by `Moved`: it moves publishers to other places,
or lets one talk to the connection, or one leaves those that its pool counts, or a pool makes one
more.

`Accounted` follows for all events at once: no publisher is lost or doubled, the size of a pool counts
those that are idle, lent or drained, and the open channels are those of the publishers.
-/

namespace Courier.Brokerage

/-- Where a publisher is. -/
inductive Place where
  | idle
  | lent
  /-- It came back to a closed pool. -/
  | returned
  /-- It was idle when its pool was closed, and is to be closed. -/
  | drained
  /-- A task of its own is to close it. -/
  | late
  | closed
  /-- There was no task to close it. -/
  | dropped
  deriving DecidableEq

/-- A publisher and its place. -/
structure Lodging where
  place : Place
  held : Held
  deriving DecidableEq

/-- Do the publishers there count for the size of their pool? -/
def Place.counts : Place → Bool
  | .idle | .lent | .drained => true
  | .returned | .late | .closed | .dropped => false

/-- Do publishers get there only from a closed pool? -/
def Place.ending : Place → Bool
  | .idle | .lent => false
  | .returned | .drained | .late | .closed | .dropped => true

/-- Where the publishers are that a task has in its hands. -/
def Role.place : Role → Place
  | .asking .. => .lent
  | .borrowing => .lent
  | .returning => .returned
  | .closing .. => .drained
  | .closer => .late
  | .ended => .lent

def Hand.lodgings (hand : Hand) : List Lodging :=
  hand.held.map (Lodging.mk hand.role.place)

/-- The idle publishers of a pool. -/
def idleOf (g : Guarantee) (pool : Pool (Nat × ChannelPublisher)) : List Lodging :=
  pool.idle.map fun p => ⟨.idle, heldFrom g p⟩

namespace System

variable (s : System)

/-- The publishers that have been closed or dropped. -/
def retired : List Lodging :=
  ((s.closed ++ s.closedLate).map fun id => ⟨.closed, ⟨id.1, id.2, none⟩⟩) ++
    s.dropped.map fun id => ⟨.dropped, ⟨id.1, id.2, none⟩⟩

/-- All publishers. -/
def lodgings : List Lodging :=
  s.tasks.flatMap (·.hand.lodgings) ++ (idleOf .atLeastOnce (s.pools .atLeastOnce) ++
    idleOf .atMostOnce (s.pools .atMostOnce) ++ s.retired)

end System

variable {config : PoolConfig} {s s' : System} {i : Nat} {task task' : Task} {g : Guarantee}
  {h h' : Held} {p p' : Place}

/-- The publishers of one pool beside all others. -/
theorem idle_focus (pools : Guarantee → Pool (Nat × ChannelPublisher)) (g : Guarantee) :
    ∃ others, ∀ pool, (idleOf .atLeastOnce (Function.update pools g pool .atLeastOnce) ++
      idleOf .atMostOnce (Function.update pools g pool .atMostOnce)).Perm (idleOf g pool ++ others) := by
  cases g with
  | atLeastOnce => exact ⟨idleOf .atMostOnce (pools .atMostOnce), fun pool => .rfl⟩
  | atMostOnce => exact ⟨idleOf .atLeastOnce (pools .atLeastOnce), fun pool => List.perm_append_comm⟩

/-- The publishers of one task and one pool, and those that have been closed, beside all others; also
after these have changed, and there are more tasks. -/
theorem lodgings_focus (hget : s.tasks[i]? = some task) (g : Guarantee) :
    ∃ others, s.lodgings.Perm (task.hand.lodgings ++ (idleOf g (s.pools g) ++ (s.retired ++ others))) ∧
      ∀ (s' : System) (task' : Task) (more : List Task) (pool : Pool (Nat × ChannelPublisher)),
        s'.tasks = s.tasks.set i task' ++ more → s'.pools = Function.update s.pools g pool →
          s'.lodgings.Perm (task'.hand.lodgings ++ (more.flatMap (·.hand.lodgings) ++
            (idleOf g pool ++ (s'.retired ++ others)))) := by
  obtain ⟨hlt, hself⟩ := List.getElem?_eq_some_iff.mp hget
  obtain ⟨idle, hidle⟩ := idle_focus s.pools g
  have hafter : ∀ (s' : System) (task' : Task) (more : List Task)
      (pool : Pool (Nat × ChannelPublisher)), s'.tasks = s.tasks.set i task' ++ more →
        s'.pools = Function.update s.pools g pool →
          s'.lodgings.Perm (task'.hand.lodgings ++ (more.flatMap (·.hand.lodgings) ++
            (idleOf g pool ++ (s'.retired ++ ((s.tasks.take i).flatMap (·.hand.lodgings) ++
              (s.tasks.drop (i + 1)).flatMap (·.hand.lodgings) ++ idle))))) := by
    intro s' task' more pool htasks hpools
    have hpool := hidle pool
    rw [← hpools] at hpool
    have hset : s.tasks.set i task' = s.tasks.take i ++ task' :: s.tasks.drop (i + 1) :=
      List.set_eq_take_append_cons_drop.trans (if_pos hlt)
    rw [System.lodgings, htasks, hset, List.flatMap_append, List.flatMap_append, List.flatMap_cons]
    refine ((hpool.append_right s'.retired).append_left _).trans (List.perm_iff_count.mpr fun x => ?_)
    simp only [List.count_append]
    omega
  refine ⟨_, ?_, hafter⟩
  refine hafter s task [] (s.pools g) ?_ (Function.update_eq_self g s.pools).symm
  rw [List.append_nil, ← hself, List.set_getElem_self]

/-! ## What an event does to them -/

/-- What matters of a lodging for the account of its pool. -/
def Lodging.kind (l : Lodging) : Bool × Held :=
  (l.place.counts, l.held)

/-- The numbers of the publishers of one pool. -/
def numbersIn (g : Guarantee) (l : List Lodging) : List Nat :=
  (l.map Lodging.kind).filterMap fun k => if k.2.guarantee = g then some k.2.number else none

/-- How many publishers count for the size of a pool. -/
def countedIn (g : Guarantee) (l : List Lodging) : Nat :=
  (l.map Lodging.kind).countP fun k => k.1 && k.2.guarantee = g

/-- The channels that are open with publishers. -/
def channelsOf (l : List Lodging) : List ChannelId :=
  (l.map Lodging.kind).flatMap (·.2.channel.toList)

/-- What one event can do to the publishers. -/
inductive Moved (s s' : System) : Prop where
  /-- Publishers move to places that count as much. -/
  | moved {before after rest : List Lodging} (hbefore : s.lodgings.Perm (before ++ rest))
      (hafter : s'.lodgings.Perm (after ++ rest))
      (hkind : after.map Lodging.kind = before.map Lodging.kind)
      (hending : ∀ l ∈ after, l.place.ending = true → (s'.pools l.held.guarantee).closed = true)
      (hsize : ∀ g, (s'.pools g).size = (s.pools g).size)
      (hcreated : ∀ g, (s'.pools g).created = (s.pools g).created)
      (hchannels : s'.channels = s.channels)
  /-- A publisher opens its channel or lets go of it, or neither. It may go to a place that counts as
  much. -/
  | talked {p p' : Place} {h h' : Held} {rest : List Lodging}
      (hbefore : s.lodgings.Perm (⟨p, h⟩ :: rest)) (hafter : s'.lodgings.Perm (⟨p', h'⟩ :: rest))
      (hid : h'.id = h.id) (hcounts : p'.counts = p.counts) (hending : p'.ending = p.ending)
      (hpools : s'.pools = s.pools)
      (hchannels : ∀ others, s.channels.Perm (h.channel.toList ++ others) →
        s'.channels.Perm (h'.channel.toList ++ others))
  /-- A publisher counts no longer for its pool, which is closed. -/
  | left {p p' : Place} {h : Held} {rest : List Lodging}
      (hbefore : s.lodgings.Perm (⟨p, h⟩ :: rest)) (hafter : s'.lodgings.Perm (⟨p', h⟩ :: rest))
      (hcounts : p.counts = true) (hcounts' : p'.counts = false)
      (hclosed : (s'.pools h.guarantee).closed = true)
      (hsize : ∀ g, (s'.pools g).size = (s.pools g).size - if h.guarantee = g then 1 else 0)
      (hcreated : ∀ g, (s'.pools g).created = (s.pools g).created)
      (hchannels : s'.channels = s.channels)
  /-- A pool makes one publisher more. -/
  | made {g : Guarantee}
      (hafter : s'.lodgings.Perm (⟨.lent, ⟨g, (s.pools g).created, none⟩⟩ :: s.lodgings))
      (hsize : ∀ g', (s'.pools g').size = (s.pools g').size + if g = g' then 1 else 0)
      (hcreated : ∀ g', (s'.pools g').created = (s.pools g').created + if g = g' then 1 else 0)
      (hchannels : s'.channels = s.channels)

/-- The publishers stay where they are. -/
theorem moved_of_same (hl : s'.lodgings.Perm s.lodgings)
    (hpools : ∀ g, Pool.Alike (s.pools g) (s'.pools g)) (hchannels : s'.channels = s.channels) :
    Moved s s' :=
  @Moved.moved s s' [] [] s.lodgings .rfl hl rfl nofun (fun g => (hpools g).size)
    (fun g => (hpools g).created) hchannels

/-- The publishers are where the pools think they are. -/
structure Accounted (s : System) : Prop where
  /-- Each publisher that a pool has made is in one place. -/
  numbers : ∀ g, (numbersIn g s.lodgings).Perm (List.range (s.pools g).created)
  size : ∀ g, (s.pools g).size = countedIn g s.lodgings
  channels : s.channels.Perm (channelsOf s.lodgings)
  /-- No publisher is on its way to be closed before its pool is closed. -/
  ending : ∀ l ∈ s.lodgings, l.place.ending = true → (s.pools l.held.guarantee).closed = true

section Measures

variable {l l' : List Lodging}

theorem numbersIn_perm (h : l.Perm l') (g : Guarantee) : (numbersIn g l).Perm (numbersIn g l') :=
  (h.map _).filterMap _

theorem countedIn_perm (h : l.Perm l') (g : Guarantee) : countedIn g l = countedIn g l' :=
  (h.map _).countP_eq _

theorem channelsOf_perm (h : l.Perm l') : (channelsOf l).Perm (channelsOf l') :=
  (h.map _).flatMap_right _

theorem numbersIn_append (g : Guarantee) (l l' : List Lodging) :
    numbersIn g (l ++ l') = numbersIn g l ++ numbersIn g l' := by
  rw [numbersIn, List.map_append, List.filterMap_append]
  rfl

theorem countedIn_append (g : Guarantee) (l l' : List Lodging) :
    countedIn g (l ++ l') = countedIn g l + countedIn g l' := by
  rw [countedIn, List.map_append, List.countP_append]
  rfl

theorem channelsOf_append (l l' : List Lodging) :
    channelsOf (l ++ l') = channelsOf l ++ channelsOf l' := by
  rw [channelsOf, List.map_append, List.flatMap_append]
  rfl

theorem numbersIn_cons (g : Guarantee) (p : Place) (h : Held) (l : List Lodging) :
    numbersIn g (⟨p, h⟩ :: l) = (if h.guarantee = g then [h.number] else []) ++ numbersIn g l := by
  unfold numbersIn Lodging.kind
  by_cases hg : h.guarantee = g <;> simp [hg]

theorem countedIn_cons (g : Guarantee) (p : Place) (h : Held) (l : List Lodging) :
    countedIn g (⟨p, h⟩ :: l) =
      countedIn g l + if p.counts = true ∧ h.guarantee = g then 1 else 0 := by
  unfold countedIn Lodging.kind
  rw [List.map_cons, List.countP_cons]
  simp

theorem channelsOf_cons (p : Place) (h : Held) (l : List Lodging) :
    channelsOf (⟨p, h⟩ :: l) = h.channel.toList ++ channelsOf l :=
  rfl

end Measures

/-- No publisher is lost or doubled. -/
theorem Accounted.numbers_moved (h : Accounted s) (hm : Moved s s') (g : Guarantee) :
    (numbersIn g s'.lodgings).Perm (List.range (s'.pools g).created) := by
  have hnumbers := h.numbers g
  cases hm with
  | @moved before after rest hbefore hafter hkind hending hsize hcreated hchannels =>
    have hsame : numbersIn g after = numbersIn g before := by rw [numbersIn, hkind, numbersIn]
    rw [hcreated]
    refine (numbersIn_perm hafter g).trans (.trans ?_ hnumbers)
    rw [numbersIn_append, hsame, ← numbersIn_append]
    exact numbersIn_perm hbefore.symm g
  | talked hbefore hafter hid hcounts hending hpools hchannels =>
    obtain ⟨hg, hn⟩ := Prod.mk.inj hid
    rw [hpools]
    refine (numbersIn_perm hafter g).trans (.trans ?_ hnumbers)
    rw [numbersIn_cons, hg, hn, ← numbersIn_cons g _ _]
    exact numbersIn_perm hbefore.symm g
  | left hbefore hafter hcounts hcounts' hclosed hsize hcreated hchannels =>
    rw [hcreated]
    refine (numbersIn_perm hafter g).trans (.trans ?_ hnumbers)
    rw [numbersIn_cons, ← numbersIn_cons g _ _]
    exact numbersIn_perm hbefore.symm g
  | @made g' hafter hsize hcreated hchannels =>
    refine (numbersIn_perm hafter g).trans ?_
    rw [numbersIn_cons, hcreated]
    by_cases hg : g' = g
    · subst hg
      simp only [if_true]
      rw [List.range_succ]
      exact (hnumbers.append_left _).trans List.perm_append_comm
    · simp only [if_neg hg]
      exact hnumbers

theorem Accounted.size_moved (h : Accounted s) (hm : Moved s s') (g : Guarantee) :
    (s'.pools g).size = countedIn g s'.lodgings := by
  have hsized := h.size g
  cases hm with
  | @moved before after rest hbefore hafter hkind hending hsize hcreated hchannels =>
    have hsame : countedIn g after = countedIn g before := by rw [countedIn, hkind, countedIn]
    rw [hsize, hsized, countedIn_perm hbefore, countedIn_perm hafter, countedIn_append,
      countedIn_append, hsame]
  | talked hbefore hafter hid hcounts hending hpools hchannels =>
    obtain ⟨hg, -⟩ := Prod.mk.inj hid
    rw [hpools, hsized, countedIn_perm hbefore, countedIn_perm hafter, countedIn_cons,
      countedIn_cons, hg, hcounts]
  | left hbefore hafter hcounts hcounts' hclosed hsize hcreated hchannels =>
    rw [hsize, hsized, countedIn_perm hbefore, countedIn_perm hafter, countedIn_cons,
      countedIn_cons, hcounts, hcounts']
    simp
  | @made g' hafter hsize hcreated hchannels =>
    rw [hsize, hsized, countedIn_perm hafter, countedIn_cons]
    simp [Place.counts]

/-- The channels that are open are those of the publishers. -/
theorem Accounted.channels_moved (h : Accounted s) (hm : Moved s s') :
    s'.channels.Perm (channelsOf s'.lodgings) := by
  have hopen := h.channels
  cases hm with
  | @moved before after rest hbefore hafter hkind hending hsize hcreated hchannels =>
    have hsame : channelsOf after = channelsOf before := by rw [channelsOf, hkind, channelsOf]
    rw [hchannels]
    refine hopen.trans ((channelsOf_perm hbefore).trans ?_)
    rw [channelsOf_append, ← hsame, ← channelsOf_append]
    exact channelsOf_perm hafter.symm
  | talked hbefore hafter hid hcounts hending hpools hchannels =>
    refine (hchannels _ (hopen.trans ?_)).trans (channelsOf_perm hafter).symm
    exact channelsOf_perm hbefore
  | left hbefore hafter hcounts hcounts' hclosed hsize hcreated hchannels =>
    rw [hchannels]
    refine hopen.trans ((channelsOf_perm hbefore).trans ?_)
    rw [channelsOf_cons, ← channelsOf_cons _ _]
    exact channelsOf_perm hafter.symm
  | made hafter hsize hcreated hchannels =>
    rw [hchannels]
    exact hopen.trans (channelsOf_perm hafter).symm

theorem Accounted.ending_moved (h : Accounted s) (hm : Moved s s')
    (hclosed : ∀ g, (s.pools g).closed = true → (s'.pools g).closed = true) :
    ∀ l ∈ s'.lodgings, l.place.ending = true → (s'.pools l.held.guarantee).closed = true := by
  have hbefore : ∀ l ∈ s.lodgings, l.place.ending = true →
      (s'.pools l.held.guarantee).closed = true := fun l hmem hl => hclosed _ (h.ending l hmem hl)
  intro l hmem hl
  cases hm with
  | moved hb ha hkind hending hsize hcreated hchannels =>
    rcases List.mem_append.mp (ha.mem_iff.mp hmem) with hmem | hmem
    · exact hending l hmem hl
    · exact hbefore l (hb.mem_iff.mpr (List.mem_append_right _ hmem)) hl
  | talked hb ha hid hcounts hending hpools hchannels =>
    rcases List.mem_cons.mp (ha.mem_iff.mp hmem) with rfl | hmem
    · obtain ⟨hg, -⟩ := Prod.mk.inj hid
      have hthere := hbefore _ (hb.mem_iff.mpr List.mem_cons_self) (hending.symm.trans hl)
      rwa [← hg] at hthere
    · exact hbefore l (hb.mem_iff.mpr (List.mem_cons_of_mem _ hmem)) hl
  | left hb ha hcounts hcounts' hends hsize hcreated hchannels =>
    rcases List.mem_cons.mp (ha.mem_iff.mp hmem) with rfl | hmem
    · exact hends
    · exact hbefore l (hb.mem_iff.mpr (List.mem_cons_of_mem _ hmem)) hl
  | made ha hsize hcreated hchannels =>
    rcases List.mem_cons.mp (ha.mem_iff.mp hmem) with rfl | hmem
    · cases hl
    · exact hbefore l hmem hl

theorem Accounted.moved (h : Accounted s) (hm : Moved s s')
    (hclosed : ∀ g, (s.pools g).closed = true → (s'.pools g).closed = true) : Accounted s' where
  numbers := h.numbers_moved hm
  size := h.size_moved hm
  channels := h.channels_moved hm
  ending := h.ending_moved hm hclosed

/-! ## At the beginning -/

theorem numbersIn_idleOf (g g' : Guarantee) (pool : Pool (Nat × ChannelPublisher)) :
    numbersIn g (idleOf g' pool) = if g' = g then pool.idle.map (·.1) else [] := by
  rw [numbersIn, idleOf, List.map_map, List.filterMap_map]
  by_cases hg : g' = g
  · simp [hg, Function.comp_def, Lodging.kind, heldFrom]
  · simp [hg, Function.comp_def, Lodging.kind, heldFrom]

theorem countedIn_idleOf (g g' : Guarantee) (pool : Pool (Nat × ChannelPublisher)) :
    countedIn g (idleOf g' pool) = if g' = g then pool.idle.length else 0 := by
  rw [countedIn, idleOf, List.map_map, List.countP_map]
  by_cases hg : g' = g
  · simp [hg, Function.comp_def, Lodging.kind, heldFrom, Place.counts]
  · simp [hg, Function.comp_def, Lodging.kind, heldFrom]

theorem accounted_new (config : PoolConfig) : Accounted (.new config) := by
  have hlodgings : (System.new config).lodgings =
      idleOf .atLeastOnce (Pool.new config (Pooling.numbered .atLeastOnce)) ++
        idleOf .atMostOnce (Pool.new config (Pooling.numbered .atMostOnce)) := List.append_nil _
  have hidle : ∀ g, (Pool.new config (Pooling.numbered g)).idle.map (·.1) =
      List.range config.normalized.initialSize := fun g => by
    simp [Pool.new, Pooling.numbered, Function.comp_def]
  refine ⟨fun g => ?_, fun g => ?_, ?_, fun l hmem hl => ?_⟩
  · rw [hlodgings, numbersIn_append, numbersIn_idleOf, numbersIn_idleOf, hidle, hidle]
    cases g <;> simp [System.new, Pool.new]
  · rw [hlodgings, countedIn_append, countedIn_idleOf, countedIn_idleOf]
    cases g <;> simp [System.new, Pool.new]
  · rw [hlodgings]
    simp [System.new, channelsOf, idleOf, Pool.new, Pooling.numbered, Lodging.kind, heldFrom,
      ChannelPublisher.of]
  · rw [hlodgings] at hmem
    simp only [idleOf, List.mem_append, List.mem_map] at hmem
    obtain ⟨p, -, rfl⟩ | ⟨p, -, rfl⟩ := hmem <;> cases hl

end Courier.Brokerage
