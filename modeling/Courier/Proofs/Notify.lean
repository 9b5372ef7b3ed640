import Courier.Notify
import Mathlib.Data.List.Nodup

/-!
# No wake-up is lost

What the operations of a `Notify` do to those whom it knows (`known`), and whom they wake: who slept
before goes on sleeping or is among the woken, and who has a wake-up had one before or is among them
(`Roused`).

`Covers` is the invariant that users of a `Notify` keep as long as someone sleeps: someone is under way
to each of the things that there are to take, with a wake-up or because he is awake. It is kept by
whoever adds something and wakes one (`Covers.notifyOne`), by whoever takes one thing with his wake-up
(`Covers.rouse`), and by one who goes away (`Covers.abandon`), since his wake-up passes on. It extends
to those who have found nothing and are about to sleep, as long as no wake-up is kept; one who takes the
wake-up that was kept can break it, if there is more to take than one thing (`Covers.took`).
-/

namespace Courier.Notify

variable {n n' : Notify} {w x k : Nat}

/-- Everyone who sleeps or has been woken and has not looked yet. -/
def known (n : Notify) : List Nat :=
  n.waiting ++ (n.handed ++ n.released)

/-- Those who have been woken and have not looked yet. -/
def woken (n : Notify) : List Nat :=
  n.handed ++ n.released

/-- Take the wake-up that the waiter has, if he has one. -/
def rouse (n : Notify) (w : Nat) : Notify :=
  (n.takeWakeUp w).getD n

theorem mem_known : x ∈ n.known ↔ x ∈ n.waiting ∨ x ∈ n.woken :=
  List.mem_append

theorem sleeps_iff : n.sleeps w = true ↔ w ∈ n.waiting :=
  List.contains_iff_mem

theorem knows_iff : n.knows w = true ↔ w ∈ n.known := by
  simp [knows, known, or_assoc]

theorem takeWakeUp_eq_none_iff : n.takeWakeUp w = none ↔ w ∉ n.woken := by
  unfold takeWakeUp woken
  by_cases hh : w ∈ n.handed
  · simp [hh]
  · by_cases hr : w ∈ n.released <;> simp [hh, hr]

/-! ## Whom the operations know -/

/-- A wake-up is taken from one of the two lists. -/
theorem rouse_cases (n : Notify) (w : Nat) :
    w ∈ n.handed ∧ n.rouse w = { n with handed := n.handed.erase w } ∨
      w ∉ n.handed ∧ n.rouse w = { n with released := n.released.erase w } := by
  unfold rouse takeWakeUp
  by_cases hh : w ∈ n.handed
  · exact .inl ⟨hh, by simp [hh]⟩
  · refine .inr ⟨hh, ?_⟩
    by_cases hr : w ∈ n.released
    · simp [hh, hr]
    · simp [hh, hr, List.erase_of_not_mem hr]

/-- One takes the wake-up that was kept, or lies down. -/
theorem sleepOrTake_cases (n : Notify) (w : Nat) :
    n.permit = true ∧ n.sleepOrTake w = ({ n with permit := false }, true) ∨
      n.permit = false ∧ n.sleepOrTake w = ({ n with waiting := n.waiting ++ [w] }, false) := by
  unfold sleepOrTake
  cases n.permit <;> simp

/-- One who goes away passes on the wake-up that he was given alone. -/
theorem abandon_cases (n : Notify) (w : Nat) :
    w ∈ n.handed ∧ n.abandon w = { n with handed := n.handed.erase w }.notifyOne ∨
      w ∉ n.handed ∧ n.abandon w =
        ({ n with waiting := n.waiting.erase w, released := n.released.erase w }, []) := by
  unfold abandon
  by_cases hh : w ∈ n.handed
  · exact .inl ⟨hh, if_pos (List.contains_iff_mem.mpr hh)⟩
  · exact .inr ⟨hh, if_neg fun hc => hh (List.contains_iff_mem.mp hc)⟩

@[simp] theorem waiting_rouse (n : Notify) (w : Nat) : (n.rouse w).waiting = n.waiting := by
  rcases rouse_cases n w with ⟨-, h⟩ | ⟨-, h⟩ <;> rw [h]

@[simp] theorem permit_rouse (n : Notify) (w : Nat) : (n.rouse w).permit = n.permit := by
  rcases rouse_cases n w with ⟨-, h⟩ | ⟨-, h⟩ <;> rw [h]

theorem woken_rouse (hn : n.known.Nodup) (w : Nat) : (n.rouse w).woken = n.woken.filter (· != w) := by
  have hwoken : n.woken.Nodup := (List.nodup_append.mp hn).2.1
  have herase : (n.rouse w).woken = n.woken.erase w := by
    rcases rouse_cases n w with ⟨hmem, h⟩ | ⟨hmem, h⟩
    · rw [h, woken, woken, List.erase_append_left _ hmem]
    · rw [h, woken, woken, List.erase_append_right _ hmem]
  rw [herase, hwoken.erase_eq_filter]

theorem mem_woken_rouse (hn : n.known.Nodup) : x ∈ (n.rouse w).woken ↔ x ∈ n.woken ∧ x ≠ w := by
  simp [woken_rouse hn]

theorem nodup_rouse (hn : n.known.Nodup) (w : Nat) : (n.rouse w).known.Nodup := by
  have hsub : (n.rouse w).known.Sublist n.known := by
    rw [known, known, waiting_rouse]
    refine List.Sublist.append_left ?_ _
    rcases rouse_cases n w with ⟨-, h⟩ | ⟨-, h⟩
    · rw [h]
      exact List.erase_sublist.append_right _
    · rw [h]
      exact List.erase_sublist.append_left _
  exact hn.sublist hsub

theorem not_mem_known_rouse (hn : n.known.Nodup) (hw : w ∉ n.waiting) : w ∉ (n.rouse w).known := by
  rw [mem_known, waiting_rouse, mem_woken_rouse hn]
  exact fun hmem => hmem.elim hw fun hmem => hmem.2 rfl

theorem known_notifyOne (n : Notify) : n.notifyOne.1.known.Perm n.known := by
  unfold notifyOne
  cases hw : n.waiting with
  | nil => simp [known, hw]
  | cons w rest =>
    simp only [known, hw, List.append_assoc, List.cons_append, List.nil_append]
    exact (List.perm_middle.append_left rest).trans List.perm_middle

theorem known_notifyAll (n : Notify) : n.notifyAll.1.known.Perm n.known := by
  simp only [notifyAll, known, List.nil_append]
  rw [← List.append_assoc]
  exact List.perm_append_comm

theorem known_lain (n : Notify) (w : Nat) :
    ({ n with waiting := n.waiting ++ [w] } : Notify).known.Perm (w :: n.known) := by
  simp only [known, List.append_assoc, List.singleton_append]
  exact List.perm_middle

theorem nodup_sleepOrTake (hn : n.known.Nodup) (hw : w ∉ n.known) :
    (n.sleepOrTake w).1.known.Nodup := by
  rcases sleepOrTake_cases n w with ⟨-, h⟩ | ⟨-, h⟩ <;> rw [h]
  · exact hn
  · exact (known_lain n w).nodup_iff.mpr (List.nodup_cons.mpr ⟨hw, hn⟩)

/-- Who goes away is known no longer, and the others stay known. -/
theorem known_abandon (hn : n.known.Nodup) (w : Nat) :
    (n.abandon w).1.known.Perm (n.known.filter (· != w)) := by
  rw [← hn.erase_eq_filter]
  obtain ⟨-, -, hapart⟩ := List.nodup_append.mp hn
  rcases abandon_cases n w with ⟨hh, h⟩ | ⟨hh, h⟩
  · have hw : w ∉ n.waiting := fun hw => hapart w hw w (List.mem_append_left _ hh) rfl
    rw [h]
    refine (known_notifyOne _).trans (.of_eq ?_)
    rw [known, known, List.erase_append_right _ hw, List.erase_append_left _ hh]
  · rw [h]
    refine .of_eq ?_
    by_cases hw : w ∈ n.waiting
    · have hr : w ∉ n.released := fun hr => hapart w hw w (List.mem_append_right _ hr) rfl
      rw [known, known, List.erase_append_left _ hw]
      simp only [List.erase_of_not_mem hr]
    · rw [known, known, List.erase_append_right _ hw, List.erase_append_right _ hh]
      simp only [List.erase_of_not_mem hw]

theorem nodup_abandon (hn : n.known.Nodup) (w : Nat) : (n.abandon w).1.known.Nodup :=
  (known_abandon hn w).nodup_iff.mpr (hn.filter _)

/-! ## Whom they wake -/

/-- Who slept, `w` apart, sleeps on or is among the woken; whoever has a wake-up had it or is among
them; and nobody has become known but `w`. -/
structure Roused (w : Nat) (n n' : Notify) (woken : List Nat) : Prop where
  asleep : ∀ x ∈ n.waiting, x ≠ w → x ∈ n'.waiting ∨ x ∈ woken
  awake : ∀ x ∈ n'.woken, x ∈ n.woken ∨ x ∈ woken
  known : ∀ x ∈ n'.known, x ≠ w → x ∈ n.known

theorem Roused.refl (w : Nat) (n : Notify) : Roused w n n [] :=
  ⟨fun _ hx _ => .inl hx, fun _ hx => .inl hx, fun _ hx _ => hx⟩

theorem Roused.trans {n'' : Notify} {some more : List Nat} (h : Roused w n n' some)
    (h' : Roused w n' n'' more) : Roused w n n'' (some ++ more) where
  asleep x hx hne := by
    rcases h.asleep x hx hne with hx | hx
    · exact (h'.asleep x hx hne).imp_right (List.mem_append_right some)
    · exact .inr (List.mem_append_left more hx)
  awake x hx := by
    rcases h'.awake x hx with hx | hx
    · exact (h.awake x hx).imp_right (List.mem_append_left more)
    · exact .inr (List.mem_append_right some hx)
  known x hx hne := h.known x (h'.known x hx hne) hne

theorem roused_notifyOne (w : Nat) (n : Notify) : Roused w n n.notifyOne.1 n.notifyOne.2 := by
  have hknown : ∀ x ∈ n.notifyOne.1.known, x ≠ w → x ∈ n.known :=
    fun x hx _ => (known_notifyOne n).mem_iff.mp hx
  unfold notifyOne at hknown ⊢
  cases hw : n.waiting with
  | nil => exact ⟨by simp [hw], fun x hx => .inl hx, by rwa [hw] at hknown⟩
  | cons first rest =>
    refine ⟨fun x hx _ => ?_, fun x hx => ?_, by rwa [hw] at hknown⟩
    · rw [hw, List.mem_cons] at hx
      exact hx.symm.imp_right List.mem_singleton.mpr
    · simp only [woken, List.mem_append, List.mem_singleton] at hx ⊢
      tauto

theorem roused_notifyAll (w : Nat) (n : Notify) : Roused w n n.notifyAll.1 n.notifyAll.2 := by
  refine ⟨fun x hx _ => .inr hx, fun x hx => ?_, fun x hx _ => (known_notifyAll n).mem_iff.mp hx⟩
  simp only [notifyAll, woken, List.mem_append] at hx ⊢
  tauto

theorem roused_rouse (w : Nat) (n : Notify) : Roused w n (n.rouse w) [] := by
  have hwoken : ∀ x ∈ (n.rouse w).woken, x ∈ n.woken := fun x hx => by
    rcases rouse_cases n w with ⟨-, h⟩ | ⟨-, h⟩
    · rw [h, woken, List.mem_append] at hx
      exact List.mem_append.mpr (hx.imp_left List.mem_of_mem_erase)
    · rw [h, woken, List.mem_append] at hx
      exact List.mem_append.mpr (hx.imp_right List.mem_of_mem_erase)
  refine ⟨fun x hx _ => .inl (by rwa [waiting_rouse]), fun x hx => .inl (hwoken x hx), fun x hx _ => ?_⟩
  rw [mem_known, waiting_rouse] at hx
  exact mem_known.mpr (hx.imp_right (hwoken x))

theorem roused_sleepOrTake (w : Nat) (n : Notify) : Roused w n (n.sleepOrTake w).1 [] := by
  rcases sleepOrTake_cases n w with ⟨-, h⟩ | ⟨-, h⟩ <;> rw [h]
  · exact ⟨fun _ hx _ => .inl hx, fun _ hx => .inl hx, fun _ hx _ => hx⟩
  · exact ⟨fun _ hx _ => .inl (List.mem_append_left _ hx), fun _ hx => .inl hx, fun _ hx hne =>
      (List.mem_cons.mp ((known_lain n w).mem_iff.mp hx)).resolve_left hne⟩

theorem roused_abandon (hn : n.known.Nodup) (w : Nat) :
    Roused w n (n.abandon w).1 (n.abandon w).2 := by
  have hknown : ∀ x ∈ (n.abandon w).1.known, x ≠ w → x ∈ n.known :=
    fun x hx _ => (List.mem_filter.mp ((known_abandon hn w).mem_iff.mp hx)).1
  rcases abandon_cases n w with ⟨-, h⟩ | ⟨-, h⟩
  · have hone := roused_notifyOne w { n with handed := n.handed.erase w }
    rw [h] at hknown ⊢
    refine ⟨hone.asleep, fun x hx => (hone.awake x hx).imp_left fun hx => ?_, hknown⟩
    simp only [woken, List.mem_append] at hx ⊢
    exact hx.imp_left List.mem_of_mem_erase
  · rw [h] at hknown ⊢
    refine ⟨fun x hx hne => .inl ((List.mem_erase_of_ne hne).mpr hx), fun x hx => .inl ?_, hknown⟩
    simp only [woken, List.mem_append] at hx ⊢
    exact hx.imp_right List.mem_of_mem_erase

theorem mem_waiting_of_notifyOne (h : x ∈ n.notifyOne.1.waiting) : x ∈ n.waiting := by
  unfold notifyOne at h
  split at h
  · exact h
  · rename_i hw
    rw [hw]
    exact List.mem_cons_of_mem _ h

theorem mem_waiting_of_abandon (h : x ∈ (n.abandon w).1.waiting) : x ∈ n.waiting := by
  rcases abandon_cases n w with ⟨-, he⟩ | ⟨-, he⟩ <;> rw [he] at h
  · exact (mem_waiting_of_notifyOne h :)
  · exact List.mem_of_mem_erase h

theorem not_mem_known_abandon (hn : n.known.Nodup) (w : Nat) : w ∉ (n.abandon w).1.known := by
  rw [(known_abandon hn w).mem_iff]
  simp

/-! ## How many have been woken alone -/

theorem handed_rouse (n : Notify) (w : Nat) : n.handed.length ≤ (n.rouse w).handed.length + 1 := by
  rcases rouse_cases n w with ⟨hmem, h⟩ | ⟨-, h⟩ <;> rw [h]
  · simp only [List.length_erase_of_mem hmem]
    omega
  · exact Nat.le_succ _

/-- One more, if someone still sleeps. -/
theorem handed_notifyOne (h : n.notifyOne.1.waiting ≠ []) :
    n.notifyOne.1.handed.length = n.handed.length + 1 := by
  unfold notifyOne at h ⊢
  cases hw : n.waiting with
  | nil =>
    rw [hw] at h
    exact absurd rfl h
  | cons first rest => exact List.length_append

/-- As many as before, if someone still sleeps: a wake-up passes on. -/
theorem handed_abandon (h : (n.abandon w).1.waiting ≠ []) :
    (n.abandon w).1.handed.length = n.handed.length := by
  rcases abandon_cases n w with ⟨hmem, he⟩ | ⟨-, he⟩ <;> rw [he] at h ⊢
  have hpos := List.length_pos_of_mem hmem
  rw [handed_notifyOne h]
  simp only [List.length_erase_of_mem hmem]
  omega

/-! ## Someone is under way to all that there is to take -/

/-- As long as someone sleeps, or is about to and no wake-up is kept, someone is under way to each of `k`
things: he has been woken, or is one of those who are awake. -/
structure Covers (n : Notify) (about : Prop) (awake k : Nat) : Prop where
  kept : n.waiting ≠ [] → n.permit = false
  covered : n.permit = false → n.waiting ≠ [] ∨ about → k ≤ n.handed.length + awake

section Covers

variable {about about' : Prop} {awake awake' k' : Nat}

theorem covers_new (about : Prop) : ({} : Notify).Covers about 0 0 :=
  ⟨fun _ => rfl, fun _ _ => Nat.zero_le _⟩

theorem Covers.mono (h : n.Covers about awake k) (habout : about' → about) (hawake : awake ≤ awake')
    (hk : k' ≤ k) : n.Covers about' awake' k' where
  kept := h.kept
  covered hp hw := by
    have := h.covered hp (hw.imp_right habout)
    omega

/-- Something more to take, and one who is woken for it. -/
theorem Covers.notifyOne (h : n.Covers about awake k) : n.notifyOne.1.Covers about awake (k + 1) := by
  unfold Notify.notifyOne
  split
  · rename_i hw
    exact ⟨fun hne => absurd hw hne, nofun⟩
  · rename_i w rest hw
    have hp : n.permit = false := h.kept (by simp [hw])
    have hk := h.covered hp (.inl (by simp [hw]))
    refine ⟨fun _ => hp, fun _ _ => ?_⟩
    simp only [List.length_append, List.length_singleton]
    omega

theorem Covers.notifyAll (h : n.Covers about awake k) : n.notifyAll.1.Covers about awake k :=
  ⟨fun hw => absurd rfl hw, fun hp hw => h.covered hp (.inr (hw.resolve_left fun hw => hw rfl))⟩

/-- One looks with his wake-up, if he has one, and takes something. -/
theorem Covers.rouse (h : n.Covers about awake (k + 1)) (w : Nat) : (n.rouse w).Covers about awake k := by
  have hhanded := handed_rouse n w
  refine ⟨fun hw => ?_, fun hp hw => ?_⟩
  · rw [waiting_rouse] at hw
    rw [permit_rouse]
    exact h.kept hw
  · rw [permit_rouse] at hp
    rw [waiting_rouse] at hw
    have := h.covered hp hw
    omega

/-- One who has no wake-up looks and takes something; he may be one of those who are awake. -/
theorem Covers.drawn (h : n.Covers about awake (k + 1)) (hw : w ∉ n.known)
    (hawake : awake ≤ awake' + 1) : (n.rouse w).Covers about awake' k := by
  have hhanded : (n.rouse w).handed = n.handed := by
    rcases rouse_cases n w with ⟨hmem, -⟩ | ⟨-, hrouse⟩
    · exact absurd (mem_known.mpr (.inr (List.mem_append_left _ hmem))) hw
    · rw [hrouse]
  refine ⟨fun hw => ?_, fun hp hw => ?_⟩
  · rw [waiting_rouse] at hw
    rw [permit_rouse]
    exact h.kept hw
  · rw [permit_rouse] at hp
    rw [waiting_rouse] at hw
    have := h.covered hp hw
    rw [hhanded]
    omega

/-- One looks, and there is nothing to take. -/
theorem Covers.missed (h : n.Covers about awake k) (about' : Prop) (awake' : Nat) (w : Nat) :
    (n.rouse w).Covers about' awake' 0 := by
  refine ⟨fun hw => ?_, fun _ _ => Nat.zero_le _⟩
  rw [waiting_rouse] at hw
  rw [permit_rouse]
  exact h.kept hw

/-- One who was about to sleep does, since no wake-up is kept. -/
theorem Covers.lain (h : n.Covers about awake k) (hpermit : n.permit = false) (habout : about) (w : Nat) :
    ({ n with waiting := n.waiting ++ [w] } : Notify).Covers about' awake k :=
  ⟨fun _ => hpermit, fun hp _ => h.covered hp (.inr habout)⟩

/-- One who was about to sleep takes the wake-up that was kept, and is awake now. If others are about to
sleep still, there must not be more than one thing to take. -/
theorem Covers.took (h : n.Covers about awake k) (hpermit : n.permit = true) (hfew : about' → k ≤ 1) :
    ({ n with permit := false } : Notify).Covers about' (awake + 1) k := by
  refine ⟨fun hw => ?_, fun _ hw => ?_⟩
  · exact absurd (h.kept hw) (by rw [hpermit]; decide)
  · rcases hw with hw | habout
    · exact absurd (h.kept hw) (by rw [hpermit]; decide)
    · have := hfew habout
      omega

/-- One goes away, and passes on the wake-up that he has. -/
theorem Covers.abandon (h : n.Covers about awake k) (w : Nat) : (n.abandon w).1.Covers about awake k := by
  rcases abandon_cases n w with ⟨hh, he⟩ | ⟨-, he⟩
  · have hlen := List.length_erase_of_mem hh
    have hless : ({ n with handed := n.handed.erase w } : Notify).Covers about awake (k - 1) := by
      refine ⟨h.kept, fun hp hw => ?_⟩
      have := h.covered hp hw
      simp only [hlen]
      omega
    rw [he]
    exact hless.notifyOne.mono id (Nat.le_refl _) (by omega)
  · rw [he]
    have hsome : n.waiting.erase w ≠ [] → n.waiting ≠ [] := fun hw hnone => by
      rw [hnone] at hw
      exact hw rfl
    exact ⟨fun hw => h.kept (hsome hw), fun hp hw => h.covered hp (hw.imp_left hsome)⟩

end Covers

end Courier.Notify
