import Courier.Outbox.Store

/-!
# Rows in the order of their ids

The committed rows of an outbox are kept in ascending order of their ids, no id twice. What a commit
does to them, in two steps:

* `insertRow_perm`, `ascending_insertRow`: a row whose id is new is put among the others, which stay
  as they are and in order;
* `foldl_markRow`: marks turn exactly the rows with these ids published.

`applied_perm` puts the two together: after a commit there are the rows of before and those that the
transaction staged, each of them published if the transaction marked it. `lowest_available` says which
rows a fetch finds.
-/

namespace Courier

/-- The row, published if its id is among these. -/
def OutboxEntry.markedIn (ids : List Int) (row : OutboxEntry) : OutboxEntry :=
  if row.id ∈ ids then { row with published := true } else row

namespace OutboxEntry

@[simp] theorem markedIn_nil (row : OutboxEntry) : row.markedIn [] = row := rfl

@[simp] theorem id_markedIn (ids : List Int) (row : OutboxEntry) : (row.markedIn ids).id = row.id := by
  unfold markedIn
  split <;> rfl

theorem markedIn_of_mem {ids : List Int} {row : OutboxEntry} (h : row.id ∈ ids) :
    row.markedIn ids = { row with published := true } := if_pos h

theorem markedIn_of_not_mem {ids : List Int} {row : OutboxEntry} (h : row.id ∉ ids) :
    row.markedIn ids = row := if_neg h

/-- Marking changes nothing of a row but whether it is published. -/
theorem markedIn_eq (ids : List Int) (row : OutboxEntry) :
    row.markedIn ids = row ∨ row.markedIn ids = { row with published := true } := by
  by_cases h : row.id ∈ ids
  · exact .inr (markedIn_of_mem h)
  · exact .inl (markedIn_of_not_mem h)

theorem published_markedIn {ids : List Int} {row : OutboxEntry} :
    (row.markedIn ids).published = true ↔ row.published = true ∨ row.id ∈ ids := by
  by_cases h : row.id ∈ ids
  · simp [markedIn_of_mem h, h]
  · simp [markedIn_of_not_mem h, h]

theorem markedIn_cons (id : Int) (ids : List Int) (row : OutboxEntry) :
    (row.markedIn [id]).markedIn ids = row.markedIn (id :: ids) := by
  by_cases h : row.id ∈ ids
  · rw [markedIn_of_mem (by simpa using h), markedIn_of_mem (List.mem_cons_of_mem id h)]
    rcases markedIn_eq [id] row with e | e <;> rw [e]
  · rw [markedIn_of_not_mem (by simpa using h)]
    simp only [markedIn, List.mem_cons, h, or_false, List.not_mem_nil]

end OutboxEntry

namespace Outbox

/-- Rows in ascending order of their ids, no id twice. -/
abbrev Ascending (rows : List OutboxEntry) : Prop :=
  rows.Pairwise fun a b => a.id < b.id

/-- Rows in order are known by their ids. -/
theorem Ascending.eq_of_id_eq {rows : List OutboxEntry} (h : Ascending rows) {a b : OutboxEntry}
    (ha : a ∈ rows) (hb : b ∈ rows) (hid : a.id = b.id) : a = b := by
  induction rows with
  | nil => cases ha
  | cons r rest ih =>
    obtain ⟨hr, hrest⟩ := List.pairwise_cons.mp h
    rcases List.mem_cons.mp ha with rfl | ha' <;> rcases List.mem_cons.mp hb with rfl | hb'
    · rfl
    · have := hr b hb'
      omega
    · have := hr a ha'
      omega
    · exact ih hrest ha' hb'

theorem Ascending.ids_nodup {rows : List OutboxEntry} (h : Ascending rows) :
    (rows.map (·.id)).Nodup :=
  List.pairwise_map.mpr (h.imp fun hab => by omega)

/-! ## The lowest rows -/

/-- The lowest of the rows that have a property, as many as the limit allows. -/
structure Lowest (among : OutboxEntry → Prop) (limit : Nat) (rows : List OutboxEntry) : Prop where
  ascending : Ascending rows
  mem : ∀ row ∈ rows, among row
  length_le : rows.length ≤ limit
  /-- A row is left out only if there are enough lower ones. -/
  rest : ∀ row, among row → row ∉ rows → rows.length = limit ∧ ∀ r ∈ rows, r.id < row.id

theorem Ascending.lowest_take {rows : List OutboxEntry} (h : Ascending rows) (limit : Nat) :
    Lowest (· ∈ rows) limit (rows.take limit) := by
  refine ⟨h.take, fun row hrow => List.mem_of_mem_take hrow, List.length_take_le limit rows,
    fun row hrow hout => ?_⟩
  have hdrop : row ∈ rows.drop limit := by
    rw [← List.take_append_drop limit rows] at hrow
    exact (List.mem_append.mp hrow).resolve_left hout
  have hlen : limit < rows.length := by
    have := List.length_pos_of_mem hdrop
    rw [List.length_drop] at this
    omega
  refine ⟨List.length_take_of_le (Nat.le_of_lt hlen), fun r hr => ?_⟩
  rw [← List.take_append_drop limit rows] at h
  exact (List.pairwise_append.mp h).2.2 r hr row hdrop

/-- Only the property counts. -/
theorem Lowest.congr {among among' : OutboxEntry → Prop} {limit : Nat} {rows : List OutboxEntry}
    (h : Lowest among limit rows) (hiff : ∀ row, among row ↔ among' row) :
    Lowest among' limit rows :=
  ⟨h.ascending, fun row hrow => (hiff row).mp (h.mem row hrow), h.length_le,
    fun row hrow => h.rest row ((hiff row).mpr hrow)⟩

/-- A row that a fetch may answer, by what the store knows. -/
structure Unlocked (o : Outbox) (row : OutboxEntry) : Prop where
  committed : row ∈ o.rows
  unpublished : row.published = false
  unlocked : row.id ∉ o.locked

theorem unlocked_iff {o : Outbox} {row : OutboxEntry} :
    o.Unlocked row ↔
      row ∈ o.rows.filter fun row => !row.published && !o.locked.contains row.id := by
  rw [List.mem_filter, Bool.and_eq_true, Bool.not_eq_true', Bool.not_eq_true',
    List.contains_eq_mem, decide_eq_false_iff_not]
  exact ⟨fun h => ⟨h.committed, h.unpublished, h.unlocked⟩, fun ⟨h₁, h₂, h₃⟩ => ⟨h₁, h₂, h₃⟩⟩

theorem unlocked_of_available {o : Outbox} {limit : Nat} {row : OutboxEntry}
    (h : row ∈ o.available limit) : o.Unlocked row :=
  unlocked_iff.mpr (List.mem_of_mem_take h)

/-- A fetch finds the lowest rows that it may answer. -/
theorem lowest_available {o : Outbox} (h : Ascending o.rows) (limit : Nat) :
    Lowest o.Unlocked limit (o.available limit) :=
  (Ascending.lowest_take (h.filter _) limit).congr fun _ => unlocked_iff.symm

/-! ## Putting a row among others -/

theorem mem_insertRow {x row : OutboxEntry} {rows : List OutboxEntry}
    (h : x ∈ insertRow row rows) : x = row ∨ x ∈ rows := by
  induction rows with
  | nil => simpa [insertRow] using h
  | cons r rest ih =>
    simp only [insertRow] at h
    split at h
    · simpa using h
    · split at h
      · rcases List.mem_cons.mp h with rfl | h
        · exact .inl rfl
        · exact .inr (List.mem_cons_of_mem r h)
      · rcases List.mem_cons.mp h with rfl | h
        · exact .inr List.mem_cons_self
        · exact (ih h).imp_right (List.mem_cons_of_mem r)

/-- A row keeps the order, whether its id is new or not. -/
theorem ascending_insertRow (row : OutboxEntry) {rows : List OutboxEntry} (h : Ascending rows) :
    Ascending (insertRow row rows) := by
  induction rows with
  | nil => simp [insertRow]
  | cons r rest ih =>
    obtain ⟨hr, hrest⟩ := List.pairwise_cons.mp h
    simp only [insertRow]
    split
    · rename_i hlt
      refine List.pairwise_cons.mpr ⟨fun x hx => ?_, h⟩
      rcases List.mem_cons.mp hx with rfl | hx
      · exact hlt
      · have := hr x hx
        omega
    · split
      · rename_i heq
        exact List.pairwise_cons.mpr ⟨fun x hx => heq ▸ hr x hx, hrest⟩
      · rename_i hlt hne
        refine List.pairwise_cons.mpr ⟨fun x hx => ?_, ih hrest⟩
        rcases mem_insertRow hx with rfl | hx
        · omega
        · exact hr x hx

/-- A row whose id is new replaces none. -/
theorem insertRow_perm {row : OutboxEntry} {rows : List OutboxEntry}
    (h : ∀ r ∈ rows, r.id ≠ row.id) : (insertRow row rows).Perm (row :: rows) := by
  induction rows with
  | nil => rfl
  | cons r rest ih =>
    have hne : row.id ≠ r.id := fun e => h r List.mem_cons_self e.symm
    have hrest : ∀ x ∈ rest, x.id ≠ row.id := fun x hx => h x (List.mem_cons_of_mem r hx)
    simp only [insertRow, if_neg hne]
    split
    · rfl
    · exact ((ih hrest).cons r).trans (.swap row r rest)

/-- Several rows put in one after another. -/
theorem ascending_foldl_insertRow (news : List OutboxEntry) {rows : List OutboxEntry}
    (h : Ascending rows) : Ascending (news.foldl (fun rows row => insertRow row rows) rows) := by
  induction news generalizing rows with
  | nil => exact h
  | cons row news ih => exact ih (ascending_insertRow row h)

theorem foldl_insertRow_perm {news rows : List OutboxEntry}
    (h : ((rows ++ news).map (·.id)).Nodup) :
    (news.foldl (fun rows row => insertRow row rows) rows).Perm (rows ++ news) := by
  induction news generalizing rows with
  | nil => simp
  | cons row news ih =>
    have hmid : ((row :: rows ++ news).map (·.id)).Nodup :=
      (List.perm_middle.map _).nodup_iff.mp h
    have hnew : ∀ r ∈ rows, r.id ≠ row.id := fun r hr e => by
      simp only [List.cons_append, List.map_cons, List.nodup_cons, List.map_append, List.mem_append,
        List.mem_map, not_or, not_exists, not_and] at hmid
      exact hmid.1.1 r hr e
    have hp := insertRow_perm hnew
    refine (ih (((hp.append_right news).map _).nodup_iff.mpr hmid)).trans ?_
    exact (hp.append_right news).trans List.perm_middle.symm

/-! ## Marking rows -/

theorem markRow_eq_map (id : Int) (rows : List OutboxEntry) :
    markRow id rows = rows.map (OutboxEntry.markedIn [id]) := by
  simp [markRow, OutboxEntry.markedIn]

theorem foldl_markRow (ids : List Int) (rows : List OutboxEntry) :
    ids.foldl (fun rows id => markRow id rows) rows = rows.map (OutboxEntry.markedIn ids) := by
  induction ids generalizing rows with
  | nil => exact (List.map_id' rows).symm
  | cons id ids ih =>
    rw [List.foldl_cons, ih, markRow_eq_map, List.map_map]
    exact List.map_congr_left fun row _ => OutboxEntry.markedIn_cons id ids row

theorem Ascending.map_markedIn {rows : List OutboxEntry} (h : Ascending rows) (ids : List Int) :
    Ascending (rows.map (OutboxEntry.markedIn ids)) := by
  refine List.pairwise_map.mpr (h.imp fun hab => ?_)
  simpa using hab

/-! ## A commit -/

theorem applied_eq (t : OutboxTransaction) (rows : List OutboxEntry) :
    applied t rows =
      (t.inserts.foldl (fun rows row => insertRow row rows) rows).map
        (OutboxEntry.markedIn t.marks) := by
  rw [applied, foldl_markRow]

theorem ascending_applied (t : OutboxTransaction) {rows : List OutboxEntry} (h : Ascending rows) :
    Ascending (applied t rows) := by
  rw [applied_eq]
  exact (ascending_foldl_insertRow t.inserts h).map_markedIn t.marks

/-- After a commit there are the rows of before and the staged ones, with the marks. -/
theorem applied_perm {t : OutboxTransaction} {rows : List OutboxEntry}
    (h : ((rows ++ t.inserts).map (·.id)).Nodup) :
    (applied t rows).Perm ((rows ++ t.inserts).map (OutboxEntry.markedIn t.marks)) := by
  rw [applied_eq]
  exact (foldl_insertRow_perm h).map _

/-- A transaction that staged no row only marks. -/
theorem applied_of_no_inserts {t : OutboxTransaction} (h : t.inserts = [])
    (rows : List OutboxEntry) : applied t rows = rows.map (OutboxEntry.markedIn t.marks) := by
  rw [applied_eq, h, List.foldl_nil]

end Outbox

end Courier
