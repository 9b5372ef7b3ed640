import Courier.Proofs.Outbox.Operations

/-!
# What every operation keeps

Three facts about an outbox that no operation breaks, whatever transactions are open: the committed
rows are in order, the locks are exactly those of the open transactions (`LocksExact`), and no id is
given twice (`IdsDistinct`). Together they are `WellFormed`; `WellFormed.step` is the induction step
and `WellFormed.after` the whole run.

A transaction adds to what is held by a fetch only, and to what is staged by an insert only; both
are given up when it ends. So each change concerns one of the two, and the other one stays as it is.
-/

namespace Courier.Outbox

/-- The store locks what the open transactions hold, each id once. -/
structure LocksExact (o : Outbox) : Prop where
  perm : o.locked.Perm o.held
  nodup : o.held.Nodup

/-- The ids of committed and staged rows differ and have been given out. -/
structure IdsDistinct (o : Outbox) : Prop where
  nodup : ((o.rows ++ o.staged).map (·.id)).Nodup
  bounds : ∀ row ∈ o.rows ++ o.staged, 1 ≤ row.id ∧ row.id ≤ o.lastId
  lastId_nonneg : 0 ≤ o.lastId

/-- What every operation keeps. -/
structure WellFormed (o : Outbox) : Prop where
  ascending : Ascending o.rows
  locks : o.LocksExact
  ids : o.IdsDistinct

theorem wellFormed_empty : WellFormed {} :=
  ⟨.nil, ⟨.nil, .nil⟩, ⟨.nil, by simp [staged, openTransactions], Int.le_refl 0⟩⟩

variable {o o' : Outbox} {tx : TransactionId} {t : OutboxTransaction}

/-! ## Locks -/

theorem LocksExact.mem_locked (h : o.LocksExact) {id : Int} :
    id ∈ o.locked ↔ ∃ tx t, o.transaction? tx = some t ∧ id ∈ t.locked :=
  h.perm.mem_iff.trans mem_held

/-- No id is held by two transactions. -/
theorem LocksExact.eq_of_mem (h : o.LocksExact) {tx₁ tx₂ : TransactionId}
    {t₁ t₂ : OutboxTransaction} (h₁ : o.transaction? tx₁ = some t₁)
    (h₂ : o.transaction? tx₂ = some t₂) {id : Int} (hid₁ : id ∈ t₁.locked) (hid₂ : id ∈ t₂.locked) :
    tx₁ = tx₂ := by
  obtain ⟨rest, hp, hrest⟩ := held_set h₁ none
  have hnodup := hp.nodup_iff.mp h.nodup
  refine Classical.byContradiction fun hne => ?_
  have hmem : id ∈ (o.setTransaction tx₁ none).held := by
    refine mem_held.mpr ⟨tx₂, t₂, ?_, hid₂⟩
    rw [transaction?_set h₁, if_neg (Ne.symm hne), h₂]
  exact (List.nodup_append.mp hnodup).2.2 id hid₁ id (by simpa using hrest.mem_iff.mp hmem) rfl

theorem LocksExact.of_perm (h : o.LocksExact) (hl : o'.locked = o.locked)
    (hh : o'.held.Perm o.held) : o'.LocksExact :=
  ⟨hl ▸ h.perm.trans hh.symm, hh.nodup_iff.mpr h.nodup⟩

/-- A transaction that is replaced by one that holds the same changes no lock. -/
theorem LocksExact.set (h : o.LocksExact) (ht : o.transaction? tx = some t)
    {new : OutboxTransaction} (hn : new.locked = t.locked) :
    (o.setTransaction tx (some new)).LocksExact := by
  obtain ⟨rest, hp, hp'⟩ := held_set ht (some new)
  simp only [Option.toList_some, List.flatMap_singleton, hn] at hp'
  exact h.of_perm rfl (hp'.trans hp.symm)

/-- The rows that a fetch finds are locked by nobody. -/
theorem ids_available (ha : Ascending o.rows) (limit : Nat) :
    ((o.available limit).map OutboxEntry.id).Nodup ∧
      ∀ id ∈ (o.available limit).map OutboxEntry.id, id ∉ o.locked := by
  refine ⟨?_, fun id hid => ?_⟩
  · exact Ascending.ids_nodup (ha.filter _).take
  · obtain ⟨row, hrow, rfl⟩ := List.mem_map.mp hid
    exact (unlocked_of_available hrow).unlocked

theorem LocksExact.lock (h : o.LocksExact) (ha : Ascending o.rows)
    (ht : o.transaction? tx = some t) (limit : Nat) : (o.lock tx t limit).LocksExact := by
  obtain ⟨hids, hfree⟩ := ids_available ha limit
  generalize hi : (o.available limit).map OutboxEntry.id = ids at hids hfree
  obtain ⟨rest, hp, hp'⟩ := held_set ht (some { t with locked := t.locked ++ ids })
  simp only [Option.toList_some, List.flatMap_singleton, List.append_assoc] at hp'
  have hheld : (o.lock tx t limit).held.Perm (o.held ++ ids) := by
    simp only [Outbox.lock, hi]
    refine hp'.trans ?_
    exact (List.perm_append_comm.append_left t.locked).trans
      ((List.append_assoc ..) ▸ (hp.symm.append_right ids))
  refine ⟨?_, hheld.nodup_iff.mpr ?_⟩
  · have : (o.lock tx t limit).locked = o.locked ++ ids := by rw [← hi]; rfl
    rw [this]
    exact (h.perm.append_right ids).trans hheld.symm
  · refine List.nodup_append.mpr ⟨h.nodup, hids, fun a ha b hb e => ?_⟩
    exact hfree b hb (h.perm.mem_iff.mpr (e ▸ ha))

/-- A transaction that ends gives up what it held, and nothing else. -/
theorem locked_finish (h : o.LocksExact) (ht : o.transaction? tx = some t) :
    (o.finish tx t).locked.Perm (o.finish tx t).held := by
  obtain ⟨rest, hp, hp'⟩ := held_set ht none
  have hd := (List.nodup_append.mp (hp.nodup_iff.mp h.nodup)).2.2
  have hfilter : (o.locked.filter fun id => !t.locked.contains id).Perm rest := by
    refine ((h.perm.trans hp).filter _).trans ?_
    rw [List.filter_append, List.filter_eq_nil_iff.mpr (by simp), List.nil_append,
      List.filter_eq_self.mpr]
    intro id hid
    simpa using fun hmem => hd id hmem id hid rfl
  exact hfilter.trans hp'.symm

theorem LocksExact.finish (h : o.LocksExact) (ht : o.transaction? tx = some t) :
    (o.finish tx t).LocksExact := by
  obtain ⟨rest, hp, hp'⟩ := held_set ht none
  refine ⟨locked_finish h ht, hp'.nodup_iff.mpr ?_⟩
  exact (List.nodup_append.mp (hp.nodup_iff.mp h.nodup)).2.1

/-! ## Ids -/

theorem IdsDistinct.of_perm (h : o.IdsDistinct) (hl : o'.lastId = o.lastId)
    (hp : ((o'.rows ++ o'.staged).map (·.id)).Perm ((o.rows ++ o.staged).map (·.id))) :
    o'.IdsDistinct := by
  refine ⟨hp.nodup_iff.mpr h.nodup, fun row hrow => ?_, hl ▸ h.lastId_nonneg⟩
  obtain ⟨r, hr, e⟩ := List.mem_map.mp (hp.mem_iff.mp (List.mem_map_of_mem hrow))
  rw [← e, hl]
  exact h.bounds r hr

/-- A transaction that is replaced by one that has staged the same changes no id. -/
theorem IdsDistinct.set (h : o.IdsDistinct) (ht : o.transaction? tx = some t)
    {new : OutboxTransaction} (hn : new.inserts = t.inserts) :
    (o.setTransaction tx (some new)).IdsDistinct := by
  obtain ⟨rest, hp, hp'⟩ := staged_set ht (some new)
  simp only [Option.toList_some, List.flatMap_singleton, hn] at hp'
  exact h.of_perm rfl (((hp'.trans hp.symm).append_left o.rows).map _)

/-- A row that is staged gets an id that no other row has. -/
theorem IdsDistinct.stage (h : o.IdsDistinct) (ht : o.transaction? tx = some t) (entry : NewEntry) :
    (o.stage tx t entry).IdsDistinct := by
  obtain ⟨rest, hp, hp'⟩ := staged_set ht
    (some { t with inserts := t.inserts ++ [entry.row (o.lastId + 1)] })
  simp only [Option.toList_some, List.flatMap_singleton, List.append_assoc,
    List.singleton_append] at hp'
  have hall : ((o.stage tx t entry).rows ++ (o.stage tx t entry).staged).Perm
      (entry.row (o.lastId + 1) :: (o.rows ++ o.staged)) := by
    refine ((hp'.trans List.perm_middle).append_left o.rows).trans ?_
    exact List.perm_middle.trans ((hp.symm.append_left o.rows).cons _)
  have hlast : (o.stage tx t entry).lastId = o.lastId + 1 := rfl
  have hid : (entry.row (o.lastId + 1)).id = o.lastId + 1 := rfl
  have hpos := h.lastId_nonneg
  refine ⟨(hall.map _).nodup_iff.mpr ?_, fun row hrow => ?_, by omega⟩
  · refine List.nodup_cons.mpr ⟨fun hmem => ?_, h.nodup⟩
    obtain ⟨r, hr, e⟩ := List.mem_map.mp hmem
    have hr := (h.bounds r hr).2
    simp only [hid] at e
    omega
  · rcases List.mem_cons.mp (hall.mem_iff.mp hrow) with rfl | hr
    · omega
    · have := h.bounds row hr
      omega

/-- What a transaction staged may be committed or discarded with its end. -/
theorem IdsDistinct.finish (h : o.IdsDistinct) (ht : o.transaction? tx = some t) :
    (o.finish tx t).IdsDistinct := by
  obtain ⟨rest, hp, hp'⟩ := staged_set ht none
  have hsub : ∀ row ∈ rest, row ∈ o.staged := fun row hrow =>
    hp.mem_iff.mpr (List.mem_append_right _ hrow)
  have hall : ((o.finish tx t).rows ++ (o.finish tx t).staged).Perm (o.rows ++ rest) :=
    hp'.append_left o.rows
  refine ⟨(hall.map _).nodup_iff.mpr ?_, fun row hrow => h.bounds row ?_, h.lastId_nonneg⟩
  · refine List.Nodup.sublist (List.Sublist.map _ ?_) (((hp.append_left o.rows).map _).nodup_iff.mp h.nodup)
    exact (List.sublist_append_right t.inserts rest).append_left o.rows
  · rcases List.mem_append.mp (hall.mem_iff.mp hrow) with hr | hr
    · exact List.mem_append_left _ hr
    · exact List.mem_append_right _ (hsub row hr)

/-- The rows that a commit applies. -/
theorem IdsDistinct.inserts (h : o.IdsDistinct) (ht : o.transaction? tx = some t) :
    ((o.rows ++ t.inserts).map (·.id)).Nodup := by
  obtain ⟨rest, hp, -⟩ := staged_set ht none
  refine List.Nodup.sublist (List.Sublist.map _ ?_) (((hp.append_left o.rows).map _).nodup_iff.mp h.nodup)
  exact (List.sublist_append_left t.inserts rest).append_left o.rows

theorem IdsDistinct.apply (h : o.IdsDistinct) (ht : o.transaction? tx = some t) :
    ({ o with rows := applied t o.rows }.finish tx t).IdsDistinct := by
  obtain ⟨rest, hp, hp'⟩ := staged_set ht none
  refine h.of_perm rfl ?_
  have hrows : ((applied t o.rows).map (·.id)).Perm ((o.rows ++ t.inserts).map (·.id)) := by
    refine ((applied_perm (h.inserts ht)).map _).trans ?_
    rw [List.map_map]
    exact .of_eq (List.map_congr_left fun row _ => OutboxEntry.id_markedIn t.marks row)
  have hstaged : (({ o with rows := applied t o.rows }.finish tx t).staged).Perm rest := hp'
  have hleft : ({ o with rows := applied t o.rows }.finish tx t).rows = applied t o.rows := rfl
  rw [hleft, List.map_append, List.map_append]
  refine (hrows.append (hstaged.map _)).trans ?_
  rw [List.map_append, List.append_assoc, ← List.map_append]
  exact (hp.symm.map _).append_left _

/-! ## All operations -/

theorem held_begin (o : Outbox) : o.begin.2.held = o.held := by
  simp [held, openTransactions, begin]

theorem staged_begin (o : Outbox) : o.begin.2.staged = o.staged := by
  simp [staged, openTransactions, begin]

theorem WellFormed.change {op : Operation} (h : o.WellFormed) (hc : Change o op o') :
    o'.WellFormed := by
  obtain ⟨ha, hl, hi⟩ := h
  cases hc with
  | idle => exact ⟨ha, hl, hi⟩
  | begin =>
    refine ⟨ha, hl.of_perm rfl (.of_eq (held_begin o)), hi.of_perm rfl ?_⟩
    rw [staged_begin]
    rfl
  | stage entry ht =>
    have hl' : LocksExact { o with lastId := o.lastId + 1 } := hl.of_perm rfl .rfl
    exact ⟨ha, hl'.set ht rfl, hi.stage ht entry⟩
  | @lock tx t limit ht =>
    have hi' : IdsDistinct { o with locked := o.locked ++ (o.available limit).map OutboxEntry.id } :=
      hi.of_perm rfl .rfl
    exact ⟨ha, hl.lock ha ht limit, hi'.set ht rfl⟩
  | marks ids ht => exact ⟨ha, hl.set ht rfl, hi.set ht rfl⟩
  | @apply tx t ht =>
    have hl' : LocksExact { o with rows := applied t o.rows } := hl.of_perm rfl .rfl
    exact ⟨ascending_applied t ha, hl'.finish ht, hi.apply ht⟩
  | refuse ht =>
    have hl' : LocksExact { o with failingCommits := o.failingCommits - 1 } := hl.of_perm rfl .rfl
    have hi' : IdsDistinct { o with failingCommits := o.failingCommits - 1 } := hi.of_perm rfl .rfl
    exact ⟨ha, hl'.finish ht, hi'.finish ht⟩
  | discard ht => exact ⟨ha, hl.finish ht, hi.finish ht⟩
  | failing count => exact ⟨ha, hl.of_perm rfl .rfl, hi.of_perm rfl .rfl⟩

/-- One operation. -/
theorem WellFormed.step (h : o.WellFormed) (op : Operation) : (o.step op).WellFormed :=
  h.change (step_change o op)

/-- Any operations of any transactions. -/
theorem WellFormed.after (h : o.WellFormed) (operations : List Operation) :
    (o.after operations).WellFormed := by
  induction operations generalizing o with
  | nil => exact h
  | cons op operations ih => exact ih (h.step op)

end Courier.Outbox
