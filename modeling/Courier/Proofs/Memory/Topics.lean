import Courier.Memory.Matching
import Mathlib.Data.List.Forall2

/-!
# What a topic pattern means

A pattern and a routing key are cut into words at their points. Each word of the pattern stands for
a segment of the words of the key (`StandsFor`): `#` for any number of them, `*` for one, and any
other word for itself. A key matches a pattern if its words can be cut into such segments, one for
each word of the pattern in their order (`topicMatches_iff`).

The matcher looks for the segments from the left and tries every length of a segment for `#`.
`wordsMatch_iff` is the induction on the words of the pattern that says that it finds some if there
are any.
-/

namespace Courier.Memory

/-- What a word of a pattern may stand for. -/
inductive StandsFor : List Char → List (List Char) → Prop where
  | many (segment : List (List Char)) : StandsFor ['#'] segment
  | one (word : List Char) : StandsFor ['*'] [word]
  /-- A word stands for itself, also one that only contains a wildcard, or is empty. -/
  | itself {word : List Char} (hmany : word ≠ ['#']) (hone : word ≠ ['*']) : StandsFor word [word]

variable {word : List Char} {segment pattern key : List (List Char)}

theorem standsFor_one_iff : StandsFor ['*'] segment ↔ ∃ word, segment = [word] := by
  constructor
  · intro h
    cases h with
    | one word => exact ⟨word, rfl⟩
    | itself _ hone => exact absurd rfl hone
  · rintro ⟨word, rfl⟩
    exact .one word

theorem standsFor_itself_iff (hmany : word ≠ ['#']) (hone : word ≠ ['*']) :
    StandsFor word segment ↔ segment = [word] := by
  constructor
  · intro h
    cases h with
    | many => exact absurd rfl hmany
    | one => exact absurd rfl hone
    | itself => rfl
  · rintro rfl
    exact .itself hmany hone

/-- The words of the pattern stand for segments that make up the words of the key. -/
def Covers (pattern key : List (List Char)) : Prop :=
  ∃ segments : List (List (List Char)), List.Forall₂ StandsFor pattern segments ∧
    segments.flatten = key

theorem covers_nil_iff : Covers [] key ↔ key = [] := by
  simp only [Covers, List.forall₂_nil_left_iff, exists_eq_left, List.flatten_nil, eq_comm]

/-- The first word stands for the words at the front, the others for the rest. -/
theorem covers_cons_iff : Covers (word :: pattern) key ↔
    ∃ segment rest, key = segment ++ rest ∧ StandsFor word segment ∧ Covers pattern rest := by
  constructor
  · rintro ⟨_, h, rfl⟩
    cases h with
    | cons hword hrest => exact ⟨_, _, List.flatten_cons, hword, _, hrest, rfl⟩
  · rintro ⟨segment, _, rfl, hword, segments, hrest, rfl⟩
    exact ⟨segment :: segments, .cons hword hrest, List.flatten_cons⟩

/-- The matcher finds segments if there are any. -/
theorem wordsMatch_iff (pattern key : List (List Char)) :
    wordsMatch pattern key = true ↔ Covers pattern key := by
  induction pattern generalizing key with
  | nil => rw [wordsMatch, covers_nil_iff, List.isEmpty_iff]
  | cons word pattern ih =>
    rw [covers_cons_iff]
    by_cases hmany : word = ['#']
    · -- what is left after a segment of any length is a suffix
      subst hmany
      rw [wordsMatch, anySuffix_eq_true_iff]
      constructor
      · rintro ⟨rest, ⟨segment, rfl⟩, hrest⟩
        exact ⟨segment, rest, rfl, .many segment, (ih rest).mp hrest⟩
      · rintro ⟨segment, rest, rfl, -, hrest⟩
        exact ⟨rest, ⟨segment, rfl⟩, (ih rest).mpr hrest⟩
    · by_cases hone : word = ['*']
      · subst hone
        simp only [standsFor_one_iff]
        cases key with
        | nil => simp [wordsMatch]
        | cons first more => simp [wordsMatch, ih]
      · simp only [standsFor_itself_iff hmany hone]
        cases key with
        | nil => simp [wordsMatch]
        | cons first more => simp [wordsMatch, ih]

/-! ## Texts -/

/-- Cutting a text is splitting its characters. -/
theorem splitWords_eq_splitOn (cs : List Char) : splitWords cs = cs.splitOn '.' := by
  induction cs with
  | nil => rfl
  | cons c rest ih =>
    rw [List.splitOn_eq_splitOnP, List.splitOnP_cons_eq_if_modifyHead, ← List.splitOn_eq_splitOnP,
      ← ih, splitWords]
    obtain ⟨word, words, hrest⟩ := List.exists_cons_of_ne_nil (splitWords_ne_nil rest)
    simp only [hrest, List.modifyHead_cons, beq_iff_eq]

/-- A routing key matches a pattern just if its words can be cut into segments, in order, that the
words of the pattern stand for. The empty key has no words. -/
theorem topicMatches_iff (pattern key : String) :
    topicMatches pattern key = true ↔
      ∃ segments : List (List (List Char)),
        List.Forall₂ StandsFor (pattern.toList.splitOn '.') segments ∧
          segments.flatten = if key = "" then [] else key.toList.splitOn '.' := by
  rw [topicMatches, wordsMatch_iff, Covers, patternWords, keyWords, splitWords_eq_splitOn,
    splitWords_eq_splitOn]
  simp only [List.isEmpty_iff, String.toList_eq_nil_iff]

/-- The empty pattern is one empty word, which the empty key has not. -/
example : (topicMatches "#" "", topicMatches "" "", topicMatches "a..#" "a.") =
    (true, false, true) := by decide +kernel

end Courier.Memory
