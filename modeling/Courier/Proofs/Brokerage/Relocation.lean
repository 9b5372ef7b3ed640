import Courier.Proofs.Brokerage.Lodgings

/-!
# How publishers change their places

One lemma for each way in which a task and a pool can pass publishers to one another: an idle one is
lent, or a new one; it comes back and is kept, or is too late; a pool is drained; and publishers are
handed on and closed. All of them are cases of `Moved`.
-/

namespace Courier.Brokerage

variable {s s' : System} {i : Nat} {task task' : Task} {g : Guarantee} {first : Held}
  {rest : List Held} {pool : Pool (Nat × ChannelPublisher)}

theorem Hand.lodgings_of_none {hand : Hand} (h : hand.held = []) : hand.lodgings = [] := by
  rw [Hand.lodgings, h]
  rfl

/-- Publishers move, and the one pool that changes has as many as before. -/
theorem moved_of_update (before after : List Lodging) {others : List Lodging}
    (hbefore : s.lodgings.Perm (before ++ others)) (hafter : s'.lodgings.Perm (after ++ others))
    (hkind : after.map Lodging.kind = before.map Lodging.kind)
    (hending : ∀ l ∈ after, l.place.ending = true → (s'.pools l.held.guarantee).closed = true)
    (hpools : s'.pools = Function.update s.pools g pool) (hsize : pool.size = (s.pools g).size)
    (hcreated : pool.created = (s.pools g).created) (hchannels : s'.channels = s.channels) :
    Moved s s' := by
  refine .moved hbefore hafter hkind hending ?_ ?_ hchannels
  · rw [hpools]
    exact (Function.forall_update_iff s.pools fun g' pool' => pool'.size = (s.pools g').size).mpr
      ⟨hsize, fun _ _ => rfl⟩
  · rw [hpools]
    exact (Function.forall_update_iff s.pools fun g' pool' =>
      pool'.created = (s.pools g').created).mpr ⟨hcreated, fun _ _ => rfl⟩

/-- One pool has changed in wake-ups only, and no task has got or lost a publisher. -/
theorem moved_alike (hget : s.tasks[i]? = some task) (hnone : task.hand.held = [])
    {pool : Pool (Nat × ChannelPublisher)} (htasks : s'.tasks = s.tasks.set i task')
    (hpools : s'.pools = Function.update s.pools g pool) (hp : Pool.Alike (s.pools g) pool)
    (hretired : s'.retired = s.retired) (hchannels : s'.channels = s.channels)
    (hnone' : task'.hand.held = []) : Moved s s' := by
  obtain ⟨others, hbefore, hafter⟩ := lodgings_focus hget g
  have hlodgings := hafter s' task' [] pool (htasks.trans (List.append_nil _).symm) hpools
  have hidle : idleOf g pool = idleOf g (s.pools g) := congrArg (List.map _) hp.idle
  rw [Hand.lodgings_of_none hnone] at hbefore
  rw [Hand.lodgings_of_none hnone', hidle, hretired] at hlodgings
  refine moved_of_same (hlodgings.trans hbefore.symm) ?_ hchannels
  rw [hpools]
  exact (Function.forall_update_iff s.pools fun g' pool' => Pool.Alike (s.pools g') pool').mpr
    ⟨hp, fun g' _ => .refl _⟩

/-- A task has got an idle publisher. -/
theorem moved_taken (hget : s.tasks[i]? = some task) (hnone : task.hand.held = [])
    {p : Nat × ChannelPublisher} {rest : List (Nat × ChannelPublisher)}
    (hidle : (s.pools g).idle = p :: rest) {pool : Pool (Nat × ChannelPublisher)}
    (htasks : s'.tasks = s.tasks.set i task') (hpools : s'.pools = Function.update s.pools g pool)
    (hp : Pool.Alike { s.pools g with idle := rest } pool) (hretired : s'.retired = s.retired)
    (hchannels : s'.channels = s.channels)
    (hhand : task'.hand = ⟨.borrowing, [heldFrom g p]⟩) : Moved s s' := by
  obtain ⟨others, hbefore, hafter⟩ := lodgings_focus hget g
  have hlodgings := hafter s' task' [] pool (htasks.trans (List.append_nil _).symm) hpools
  rw [Hand.lodgings, hnone, idleOf, hidle] at hbefore
  rw [hhand, hretired, idleOf, hp.idle] at hlodgings
  refine moved_of_update [⟨.idle, heldFrom g p⟩] [⟨.lent, heldFrom g p⟩] hbefore hlodgings rfl
    (fun l hmem hending => ?_) hpools hp.size hp.created hchannels
  rw [List.mem_singleton.mp hmem] at hending
  cases hending

/-- A task has got a new publisher. -/
theorem moved_grown (hget : s.tasks[i]? = some task) (hnone : task.hand.held = [])
    {pool : Pool (Nat × ChannelPublisher)} (htasks : s'.tasks = s.tasks.set i task')
    (hpools : s'.pools = Function.update s.pools g pool)
    (hp : Pool.Alike
      { s.pools g with size := (s.pools g).size + 1, created := (s.pools g).created + 1 } pool)
    (hretired : s'.retired = s.retired) (hchannels : s'.channels = s.channels)
    (hhand : task'.hand = ⟨.borrowing, [⟨g, (s.pools g).created, none⟩]⟩) : Moved s s' := by
  obtain ⟨others, hbefore, hafter⟩ := lodgings_focus hget g
  have hlodgings := hafter s' task' [] pool (htasks.trans (List.append_nil _).symm) hpools
  rw [Hand.lodgings, hnone] at hbefore
  rw [hhand, hretired, idleOf, hp.idle] at hlodgings
  refine .made (hlodgings.trans (hbefore.symm.cons _)) ?_ ?_ hchannels
  · rw [hpools]
    exact (Function.forall_update_iff s.pools fun g' pool' =>
      pool'.size = (s.pools g').size + if g = g' then 1 else 0).mpr
      ⟨hp.size.trans (by rw [if_pos rfl]), fun g' hg => by rw [if_neg hg.symm]; rfl⟩
  · rw [hpools]
    exact (Function.forall_update_iff s.pools fun g' pool' =>
      pool'.created = (s.pools g').created + if g = g' then 1 else 0).mpr
      ⟨hp.created.trans (by rw [if_pos rfl]), fun g' hg => by rw [if_neg hg.symm]; rfl⟩

/-! ## Coming back -/

/-- A publisher has been given back to its pool. -/
theorem moved_kept (hget : s.tasks[i]? = some task) (hhand : task.hand = ⟨.borrowing, [first]⟩)
    {publisher : ChannelPublisher} (hp : publisher.channel = first.channel)
    (htasks : s'.tasks = s.tasks.set i task')
    (hpools : s'.pools = Function.update s.pools first.guarantee pool)
    (halike : Pool.Alike { s.pools first.guarantee with
      idle := (s.pools first.guarantee).idle ++ [(first.number, publisher)] } pool)
    (hretired : s'.retired = s.retired) (hchannels : s'.channels = s.channels)
    (hnone' : task'.hand.held = []) : Moved s s' := by
  obtain ⟨others, hbefore, hafter⟩ := lodgings_focus hget first.guarantee
  have hlodgings := hafter s' task' [] pool (htasks.trans (List.append_nil _).symm) hpools
  have hback : heldFrom first.guarantee (first.number, publisher) = first := by
    rw [heldFrom, hp]
  have hidle : idleOf first.guarantee pool =
      idleOf first.guarantee (s.pools first.guarantee) ++ [⟨.idle, first⟩] := by
    rw [idleOf, halike.idle, List.map_append, List.map_singleton, hback]
    rfl
  rw [hhand] at hbefore
  rw [Hand.lodgings_of_none hnone', hidle, hretired, List.append_assoc] at hlodgings
  refine moved_of_update [⟨.lent, first⟩] [⟨.idle, first⟩] hbefore
    (hlodgings.trans List.perm_middle) rfl (fun l hmem hending => ?_) hpools halike.size
    halike.created hchannels
  rw [List.mem_singleton.mp hmem] at hending
  cases hending

/-- A publisher counts no longer for its pool. -/
theorem left_of_lodgings {p p' : Place} {others : List Lodging}
    (hbefore : s.lodgings.Perm (⟨p, first⟩ :: others))
    (hafter : s'.lodgings.Perm (⟨p', first⟩ :: others)) (hcounts : p.counts = true)
    (hcounts' : p'.counts = false) (hclosed : (s.pools first.guarantee).closed = true)
    (hpools : s'.pools = Function.update s.pools first.guarantee (s.pools first.guarantee).shrink)
    (hchannels : s'.channels = s.channels) : Moved s s' := by
  refine .left hbefore hafter hcounts hcounts' ?_ ?_ ?_ hchannels
  · rw [hpools, Function.update_self]
    exact hclosed
  · rw [hpools]
    exact (Function.forall_update_iff s.pools fun g' pool' =>
      pool'.size = (s.pools g').size - if first.guarantee = g' then 1 else 0).mpr
      ⟨by rw [if_pos rfl]; rfl, fun g' hg => by rw [if_neg hg.symm]; rfl⟩
  · rw [hpools]
    exact (Function.forall_update_iff s.pools fun g' pool' =>
      pool'.created = (s.pools g').created).mpr ⟨rfl, fun _ _ => rfl⟩

/-- A publisher has come back to a closed pool. -/
theorem moved_late (hget : s.tasks[i]? = some task) (hhand : task.hand = ⟨.borrowing, [first]⟩)
    (htasks : s'.tasks = s.tasks.set i task')
    (hpools : s'.pools = Function.update s.pools first.guarantee (s.pools first.guarantee).shrink)
    (hclosed : (s.pools first.guarantee).closed = true) (hretired : s'.retired = s.retired)
    (hchannels : s'.channels = s.channels) (hhand' : task'.hand = ⟨.returning, [first]⟩) :
    Moved s s' := by
  obtain ⟨others, hbefore, hafter⟩ := lodgings_focus hget first.guarantee
  have hlodgings := hafter s' task' [] _ (htasks.trans (List.append_nil _).symm) hpools
  rw [hhand] at hbefore
  rw [hhand', hretired] at hlodgings
  exact left_of_lodgings hbefore hlodgings rfl rfl hclosed hpools hchannels

/-- A publisher that came back late is handed to a task that closes it. -/
theorem moved_detached (hget : s.tasks[i]? = some task) (hhand : task.hand = ⟨.returning, [first]⟩)
    {closer : Task} (htasks : s'.tasks = s.tasks.set i task' ++ [closer]) (hpools : s'.pools = s.pools)
    (hclosed : (s.pools first.guarantee).closed = true) (hretired : s'.retired = s.retired)
    (hchannels : s'.channels = s.channels) (hnone' : task'.hand.held = [])
    (hcloser : closer.hand = ⟨.closer, [first]⟩) : Moved s s' := by
  obtain ⟨others, hbefore, hafter⟩ := lodgings_focus hget first.guarantee
  have hlodgings := hafter s' task' [closer] _ htasks
    (hpools.trans (Function.update_eq_self ..).symm)
  rw [hhand] at hbefore
  rw [Hand.lodgings_of_none hnone', hretired, List.flatMap_singleton, hcloser] at hlodgings
  refine @Moved.moved s s' [⟨.returned, first⟩] [⟨.late, first⟩] _ hbefore hlodgings rfl ?_
    (fun g => by rw [hpools]) (fun g => by rw [hpools]) hchannels
  intro l hmem _
  rw [List.mem_singleton.mp hmem, hpools]
  exact hclosed

/-- One publisher more is noted among those that have been closed. -/
theorem retired_perm {before after noted : List Lodging} {l : Lodging} (others idle : List Lodging)
    (hnoted : noted.Perm (l :: before)) :
    (after ++ (idle ++ (noted ++ others))).Perm (l :: (after ++ (idle ++ (before ++ others)))) := by
  have hcons : (noted ++ others).Perm (l :: (before ++ others)) := hnoted.append_right others
  exact ((hcons.append_left idle).trans List.perm_middle |>.append_left after).trans List.perm_middle

/-- A channel that is open with a publisher goes with it. -/
theorem perm_of_diff {channels others : List ChannelId} {channel : Option ChannelId}
    (hp : channels.Perm (channel.toList ++ others)) : (channels.diff channel.toList).Perm others := by
  cases channel with
  | none => exact hp
  | some channel =>
    have herase := hp.erase channel
    rw [Option.toList_some, List.singleton_append, List.erase_cons_head] at herase
    have hdiff : channels.diff [channel] = channels.erase channel := List.diff_cons ..
    show (channels.diff [channel]).Perm others
    rw [hdiff]
    exact herase

/-- A publisher that came back late is let go of, and its channel with it. -/
theorem moved_dropped (hget : s.tasks[i]? = some task) (hhand : task.hand = ⟨.returning, [first]⟩)
    (htasks : s'.tasks = s.tasks.set i task') (hpools : s'.pools = s.pools)
    (hshut : s'.closed = s.closed) (hlate : s'.closedLate = s.closedLate)
    (hdropped : s'.dropped = s.dropped ++ [first.id])
    (hchannels : s'.channels = s.channels.diff first.channel.toList)
    (hnone' : task'.hand.held = []) : Moved s s' := by
  obtain ⟨others, hbefore, hafter⟩ := lodgings_focus hget first.guarantee
  have hlodgings := hafter s' task' [] _ (htasks.trans (List.append_nil _).symm)
    (hpools.trans (Function.update_eq_self ..).symm)
  have hnoted : s'.retired.Perm (⟨.dropped, { first with channel := none }⟩ :: s.retired) := by
    rw [System.retired, System.retired, hshut, hlate, hdropped]
    exact ((List.perm_append_singleton first.id s.dropped).map _ |>.append_left _).trans
      List.perm_middle
  rw [hhand] at hbefore
  rw [Hand.lodgings_of_none hnone'] at hlodgings
  refine .talked hbefore (hlodgings.trans (retired_perm others _ hnoted)) rfl rfl rfl hpools
    fun others hp => ?_
  rw [hchannels]
  exact perm_of_diff hp

/-! ## Closing -/

/-- The idle publishers of a pool are in the hands of the task that closes it. -/
theorem moved_drained (hget : s.tasks[i]? = some task) (hnone : task.hand.held = [])
    (htasks : s'.tasks = s.tasks.set i task') (hpools : s'.pools = Function.update s.pools g pool)
    (halike : Pool.Alike { s.pools g with idle := [], closed := true } pool)
    (hretired : s'.retired = s.retired) (hchannels : s'.channels = s.channels) {stopped : Bool}
    {shut : List Guarantee}
    (hhand' : task'.hand = ⟨.closing stopped shut, (s.pools g).idle.map (heldFrom g)⟩) : Moved s s' := by
  obtain ⟨others, hbefore, hafter⟩ := lodgings_focus hget g
  have hlodgings := hafter s' task' [] _ (htasks.trans (List.append_nil _).symm) hpools
  have hidle : idleOf g pool = [] := by
    rw [idleOf, halike.idle]
    rfl
  rw [Hand.lodgings_of_none hnone] at hbefore
  rw [hhand', hretired, hidle] at hlodgings
  refine moved_of_update (idleOf g (s.pools g))
    (((s.pools g).idle.map (heldFrom g)).map (Lodging.mk .drained)) hbefore hlodgings ?_ ?_ hpools
    halike.size halike.created hchannels
  · rw [idleOf, List.map_map, List.map_map, List.map_map]
    rfl
  · intro l hmem _
    simp only [List.mem_map] at hmem
    obtain ⟨_, ⟨p, -, rfl⟩, rfl⟩ := hmem
    rw [hpools]
    show (Function.update s.pools g pool g).closed = true
    rw [Function.update_self]
    exact halike.closed

theorem retired_closed (hnone : first.channel = none)
    (hnoted : (s'.closed ++ s'.closedLate).Perm (first.id :: (s.closed ++ s.closedLate)))
    (hdropped : s'.dropped = s.dropped) : s'.retired.Perm (⟨.closed, first⟩ :: s.retired) := by
  have hfirst : (⟨first.guarantee, first.number, none⟩ : Held) = first := by rw [← hnone]
  rw [System.retired, System.retired, hdropped, ← hfirst]
  exact (hnoted.map _).append_right _

/-- A drained publisher has been closed. -/
theorem moved_shrunk {stopped : Bool} {shut : List Guarantee} (hget : s.tasks[i]? = some task)
    (hhand : task.hand = ⟨.closing stopped shut, first :: rest⟩) (hnone : first.channel = none)
    (htasks : s'.tasks = s.tasks.set i task')
    (hpools : s'.pools = Function.update s.pools first.guarantee (s.pools first.guarantee).shrink)
    (hclosed : (s.pools first.guarantee).closed = true) (hshut : s'.closed = s.closed ++ [first.id])
    (hlate : s'.closedLate = s.closedLate) (hdropped : s'.dropped = s.dropped)
    (hchannels : s'.channels = s.channels)
    (hhand' : task'.hand = ⟨.closing stopped shut, rest⟩) : Moved s s' := by
  obtain ⟨others, hbefore, hafter⟩ := lodgings_focus hget first.guarantee
  have hlodgings := hafter s' task' [] _ (htasks.trans (List.append_nil _).symm) hpools
  have hnoted : s'.retired.Perm (⟨.closed, first⟩ :: s.retired) := by
    refine retired_closed hnone ?_ hdropped
    rw [hshut, hlate, List.append_assoc]
    exact List.perm_middle
  rw [hhand] at hbefore
  rw [hhand'] at hlodgings
  exact left_of_lodgings hbefore (hlodgings.trans (retired_perm others _ hnoted)) rfl rfl hclosed hpools
    hchannels

/-- A late publisher has been closed. -/
theorem moved_closedLate (hget : s.tasks[i]? = some task) (hhand : task.hand = ⟨.closer, [first]⟩)
    (hnone : first.channel = none) (htasks : s'.tasks = s.tasks.set i task')
    (hpools : s'.pools = s.pools) (hclosed : (s.pools first.guarantee).closed = true)
    (hshut : s'.closed = s.closed) (hlate : s'.closedLate = s.closedLate ++ [first.id])
    (hdropped : s'.dropped = s.dropped) (hchannels : s'.channels = s.channels) (hnone' : task'.hand.held = []) : Moved s s' := by
  obtain ⟨others, hbefore, hafter⟩ := lodgings_focus hget first.guarantee
  have hlodgings := hafter s' task' [] _ (htasks.trans (List.append_nil _).symm)
    (hpools.trans (Function.update_eq_self ..).symm)
  have hnoted : s'.retired.Perm (⟨.closed, first⟩ :: s.retired) := by
    refine retired_closed hnone ?_ hdropped
    rw [hshut, hlate, ← List.append_assoc]
    exact List.perm_append_singleton _ _
  rw [hhand] at hbefore
  rw [Hand.lodgings_of_none hnone'] at hlodgings
  refine @Moved.moved s s' [⟨.late, first⟩] [⟨.closed, first⟩] _ hbefore
    (hlodgings.trans (retired_perm others _ hnoted)) rfl ?_ (fun g => by rw [hpools])
    (fun g => by rw [hpools]) hchannels
  intro l hmem _
  rw [List.mem_singleton.mp hmem, hpools]
  exact hclosed

end Courier.Brokerage
