/-!
# Order up to repetition

A list of ids may repeat what it had before and still be in order: `InOrder` says that nothing comes
before a smaller id does. The smaller ids that count are the committed ones; there are gaps between
them, for the ids of a transaction that is rolled back are lost.

An order like this survives what a broker and a relay do to the messages of a queue: rows are sent
again from the first unpublished one on (`InOrder.append`), and a message that has been handled goes
back to the front, before others that have not been handled yet (`InOrder.insert`). In the order of
their first occurrence the ids ascend (`InOrder.ascending`).
-/

namespace Courier.Delivery

/-- With each of its ids the list has all smaller ones that are committed. -/
def Complete (committed : Int → Prop) (ids : List Int) : Prop :=
  ∀ id ∈ ids, ∀ c, committed c → c < id → c ∈ ids

/-- However far the list is read, what has been read is complete. -/
def InOrder (committed : Int → Prop) (ids : List Int) : Prop :=
  ∀ n, Complete committed (ids.take n)

variable {committed committed' : Int → Prop} {ids more front again back : List Int}

theorem inOrder_nil : InOrder committed [] := by
  intro n id hid
  rw [List.take_nil] at hid
  cases hid

theorem InOrder.complete (h : InOrder committed ids) : Complete committed ids := by
  have := h ids.length
  rwa [List.take_length] at this

theorem InOrder.of_append (h : InOrder committed (ids ++ more)) : InOrder committed ids := by
  intro n
  rcases Nat.le_total n ids.length with hn | hn
  · have := h n
    rwa [List.take_append_of_le_length hn] at this
  · have := h ids.length
    rw [List.take_left] at this
    rwa [List.take_of_length_le hn]

/-- What comes first at some place comes behind all that is smaller. -/
theorem InOrder.first {id : Int} (h : InOrder committed (ids ++ id :: more)) {c : Int}
    (hc : committed c) (hlt : c < id) : c ∈ ids := by
  have hread : InOrder committed (ids ++ [id]) := by
    rw [List.append_cons] at h
    exact h.of_append
  rcases List.mem_append.mp (hread.complete id (by simp) c hc hlt) with hmem | hmem
  · exact hmem
  · rw [List.mem_singleton.mp hmem] at hlt
    exact absurd hlt (Int.lt_irrefl id)

/-- Something is appended behind all that is smaller. -/
theorem InOrder.append (h : InOrder committed ids)
    (hmore : ∀ id ∈ more, ∀ c, committed c → c < id → c ∈ ids) :
    InOrder committed (ids ++ more) := by
  intro n
  rw [List.take_append]
  rcases Nat.le_total n ids.length with hn | hn
  · rw [Nat.sub_eq_zero_of_le hn, List.take_zero, List.append_nil]
    exact h n
  · rw [List.take_of_length_le hn]
    intro id hid c hc hlt
    refine List.mem_append_left _ ?_
    rcases List.mem_append.mp hid with hid | hid
    · exact h.complete id hid c hc hlt
    · exact hmore id (List.mem_of_mem_take hid) c hc hlt

/-- What has been read comes again, before something that has not. -/
theorem InOrder.insert (h : InOrder committed (front ++ back)) (hagain : ∀ id ∈ again, id ∈ front) :
    InOrder committed (front ++ again ++ back) := by
  intro n
  rcases Nat.le_total n front.length with hn | hn
  · have := h n
    rw [List.take_append_of_le_length hn] at this
    rwa [List.append_assoc, List.take_append_of_le_length hn]
  · -- the same ids have been read as without those that come again
    have hread := h (front.length + (n - (front ++ again).length))
    rw [List.take_length_add_append] at hread
    have hmem : ∀ id, id ∈ (front ++ again ++ back).take n ↔
        id ∈ front ++ back.take (n - (front ++ again).length) := by
      intro id
      rw [List.take_append, List.take_append, List.take_of_length_le hn]
      simp only [List.mem_append]
      refine or_congr_left ⟨fun hid => ?_, .inl⟩
      exact hid.elim (fun h => h) fun h => hagain id (List.mem_of_mem_take h)
    intro id hid c hc hlt
    exact (hmem c).mpr (hread id ((hmem id).mp hid) c hc hlt)

/-- More is committed, but nothing below what is there. -/
theorem InOrder.mono (h : InOrder committed ids)
    (hnew : ∀ id ∈ ids, ∀ c, committed' c → c < id → committed c) : InOrder committed' ids :=
  fun n id hid c hc hlt => h n id hid c (hnew id (List.mem_of_mem_take hid) c hc hlt) hlt

/-- By their first occurrence the ids ascend. -/
theorem InOrder.ascending (h : InOrder committed ids) (hc : ∀ id ∈ ids, committed id) :
    ids.eraseDups.Pairwise (· < ·) := by
  -- the list is taken apart at its end, where the last id comes for the first time or not
  induction hn : ids.length generalizing ids with
  | zero =>
    rw [List.eq_nil_of_length_eq_zero hn, List.eraseDups_nil]
    exact .nil
  | succ n ih =>
    have hne : ids ≠ [] := List.ne_nil_of_length_eq_add_one hn
    obtain ⟨init, last, rfl⟩ : ∃ init last, ids = init ++ [last] :=
      ⟨ids.dropLast, ids.getLast hne, (List.dropLast_concat_getLast hne).symm⟩
    have hinit : init.eraseDups.Pairwise (· < ·) := by
      refine ih h.of_append (fun id hid => hc id (List.mem_append_left _ hid)) ?_
      simpa using hn
    rw [List.eraseDups_append]
    by_cases hlast : last ∈ init
    · have hnone : [last].removeAll init = [] := by simp [List.removeAll, hlast]
      rw [hnone, List.eraseDups_nil, List.append_nil]
      exact hinit
    · have hone : ([last].removeAll init).eraseDups = [last] := by
        simp [List.removeAll, hlast, List.eraseDups_cons]
      rw [hone]
      refine List.pairwise_append.mpr ⟨hinit, List.pairwise_singleton _ _, fun id hid x hx => ?_⟩
      rw [List.mem_singleton.mp hx]
      have hid' : id ∈ init := List.mem_eraseDups.mp hid
      -- were the last one smaller, it would have come before
      refine Decidable.byContradiction fun hge => ?_
      rcases Int.lt_or_eq_of_le (Int.not_lt.mp hge) with hlt | heq
      · exact hlast (h.of_append.complete id hid' last (hc last (by simp)) hlt)
      · exact hlast (heq ▸ hid')

end Courier.Delivery
