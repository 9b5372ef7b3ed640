import Mathlib.Data.List.Nodup

/-!
# Lists of which one element changes

Tasks, transactions, lanes and runs are kept in lists and known by their places there. An event
replaces one of them or appends one: what is at a place then (`getElem?_set_cases`,
`getElem?_append_cases`), and what that does to what all of them have together
(`flatMap_set_add`, `countP_set_add`).
-/

namespace Courier

variable {α β : Type*} {items : List α} {i j : Nat} {a b : α}

theorem getElem?_set_cases (h : (items.set i a)[j]? = some b) :
    j = i ∧ b = a ∨ j ≠ i ∧ items[j]? = some b := by
  rw [List.getElem?_set] at h
  by_cases hij : i = j
  · rw [if_pos hij] at h
    split at h
    · exact .inl ⟨hij.symm, (Option.some.inj h).symm⟩
    · cases h
  · rw [if_neg hij] at h
    exact .inr ⟨Ne.symm hij, h⟩

theorem getElem?_append_cases (h : (items ++ [a])[j]? = some b) :
    items[j]? = some b ∨ j = items.length ∧ b = a := by
  rw [List.getElem?_append] at h
  split at h
  · exact .inl h
  · have hlt := (List.getElem?_eq_some_iff.mp h).1
    rw [List.length_singleton] at hlt
    exact .inr ⟨by omega, List.mem_singleton.mp (List.mem_of_getElem? h)⟩

/-- An element is replaced by one that adds something. -/
theorem flatMap_set_add {f : α → List β} (more : List β) (h : items[i]? = some a)
    (hadd : f b = more ++ f a) : ((items.set i b).flatMap f).Perm (more ++ items.flatMap f) := by
  obtain ⟨hlt, hget⟩ := List.getElem?_eq_some_iff.mp h
  obtain ⟨before, after, hsplit, -, hset⟩ : ∃ before after, items = before ++ items[i] :: after ∧
      before.length = i ∧ items.set i b = before ++ b :: after := List.exists_of_set hlt
  rw [hget] at hsplit
  rw [hset, hsplit]
  simp only [List.flatMap_append, List.flatMap_cons, hadd, List.append_assoc]
  exact List.perm_append_comm_assoc ..

/-- An element is replaced by one that lacks something. -/
theorem flatMap_set_remove {f : α → List β} (more : List β) (h : items[i]? = some a)
    (hremove : f a = more ++ f b) : (items.flatMap f).Perm (more ++ (items.set i b).flatMap f) := by
  obtain ⟨hlt, hget⟩ := List.getElem?_eq_some_iff.mp h
  have hback : (items.set i b)[i]? = some b := List.getElem?_set_self hlt
  have hsame : (items.set i b).set i a = items := by rw [List.set_set, ← hget, List.set_getElem_self]
  simpa only [hsame] using flatMap_set_add more hback hremove

theorem countP_set_add (f : α → Bool) (b : α) (h : items[i]? = some a) :
    (items.set i b).countP f + (f a).toNat = items.countP f + (f b).toNat := by
  have toNat_eq : ∀ x : Bool, x.toNat = if x = true then 1 else 0 := by decide
  induction items generalizing i with
  | nil => cases h
  | cons x items ih =>
    cases i with
    | zero =>
      obtain rfl : x = a := Option.some.inj h
      simp only [List.set_cons_zero, List.countP_cons, toNat_eq]
      omega
    | succ i =>
      have := ih h
      simp only [List.set_cons_succ, List.countP_cons] at this ⊢
      omega

theorem countP_le_one {f : α → Bool}
    (h : ∀ (i j : Nat) (a b : α), items[i]? = some a → items[j]? = some b → f a = true →
      f b = true → i = j) : items.countP f ≤ 1 := by
  induction items with
  | nil => simp
  | cons x items ih =>
    rw [List.countP_cons]
    have hrest : items.countP f ≤ 1 := by
      refine ih fun i j a b ha hb hfa hfb => ?_
      exact Nat.succ.inj (h (i + 1) (j + 1) a b ha hb hfa hfb)
    by_cases hx : f x = true
    · -- the first one satisfies it, so none of the others does
      have hzero : items.countP f = 0 := by
        refine List.countP_eq_zero.mpr fun b hb hfb => ?_
        obtain ⟨j, hj⟩ := List.getElem?_of_mem hb
        exact absurd (h 0 (j + 1) x b rfl hj hx hfb) (Nat.succ_ne_zero j).symm
      simp [hzero, hx]
    · rw [if_neg hx]
      omega

/-- If no two elements have the same key, one of them is all that there is of its key. -/
theorem filter_eq_singleton [DecidableEq β] {key : α → β} (h : (items.map key).Nodup)
    (ha : a ∈ items) : (items.filter fun x => key x = key a) = [a] := by
  induction items with
  | nil => cases ha
  | cons x items ih =>
    obtain ⟨hx, hitems⟩ := List.nodup_cons.mp h
    rcases List.mem_cons.mp ha with rfl | ha
    · rw [List.filter_cons_of_pos (by simp), List.filter_eq_nil_iff.mpr fun y hy => ?_]
      have hne : key y ≠ key a := fun heq => hx (heq ▸ List.mem_map_of_mem hy)
      simpa using hne
    · have hne : key x ≠ key a := fun heq => hx (heq ▸ List.mem_map_of_mem ha)
      rw [List.filter_cons_of_neg (by simpa using hne), ih hitems ha]

end Courier
