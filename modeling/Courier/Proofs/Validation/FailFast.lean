import Courier.Proofs.Validation
import Mathlib.Data.List.Forall2

/-!
# Failing fast

A validator that fails fast runs the same rules as one that reports all, and leaves out what it has no
room for. `traversed` says so for every type of payloads, of what both collectors hold after each rule
and of what is reported in the end, and says in which order the rules of lists and optional values are
run.
-/

namespace Courier

open Program (Follows)
open Validation (Finds)

variable {α : Type} [Validate α] {validator : Validator} {rules : Validation}
  {found found' : List Violation} {trail : List (Program.Event Validation.Request)}

/-! ## The trail of rules -/

/-- The rules of a list are those of its items, in their order. -/
theorem Validation.told_inOrder {each : List Validation} :
    (Validation.inOrder each).Told trail () ↔
      ∃ trails, List.Forall₂ (fun rules trail => rules.Told trail ()) each trails ∧
        trail = trails.flatten := by
  induction each generalizing trail with
  | nil =>
    constructor
    · rintro ⟨rfl, -⟩
      exact ⟨[], .nil, rfl⟩
    · rintro ⟨_, ⟨⟩, rfl⟩
      exact ⟨rfl, rfl⟩
  | cons rules rest ih =>
    rw [Validation.inOrder, Program.told_bind]
    constructor
    · rintro ⟨_, first, second, rfl, hfirst, hsecond⟩
      obtain ⟨trails, hall, rfl⟩ := ih.mp hsecond
      exact ⟨first :: trails, .cons hfirst hall, rfl⟩
    · rintro ⟨_, hall, rfl⟩
      obtain ⟨first, trails, hfirst, hrest, rfl⟩ := List.forall₂_cons_left_iff.mp hall
      exact ⟨(), first, trails.flatten, rfl, hfirst, ih.mpr ⟨trails, hrest, rfl⟩⟩

/-! ## The two collectors -/

namespace Violations

/-- The collector once all this has been asked of it. -/
def after (violations : Violations) (trail : List (Program.Event Validation.Request)) : Violations :=
  trail.foldl (fun violations event => (answer event.request violations).2) violations

end Violations

namespace Validator

theorem after_collected (h : Follows Finds found trail found') :
    (validator.collected found).after trail = validator.collected found' := by
  induction trail generalizing found with
  | nil => exact congrArg validator.collected h.symm
  | cons event rest ih =>
    obtain ⟨found₁, hfinds, hrest⟩ := h
    rw [Violations.after, List.foldl_cons, answer_collected hfinds]
    exact ih hrest

/-- There is one trail only. -/
theorem trail_unique {trail' : List (Program.Event Validation.Request)}
    {found₁ found₂ : List Violation} (htold : rules.Told trail ()) (h : Follows Finds found trail found₁)
    (htold' : rules.Told trail' ()) (h' : Follows Finds found trail' found₂) : trail' = trail := by
  have hrun := run_note_collected {} htold h []
  have hrun' := run_note_collected {} htold' h' []
  exact congrArg (fun run => run.2.2) (hrun'.symm.trans hrun)

end Validator

/-! ## What is reported -/

namespace Validate

/-- A value was checked by these requests, which found these rules to be broken. -/
structure Checked (value : α) (trail : List (Program.Event Validation.Request))
    (found : List Violation) : Prop where
  told : (Validate.rules value).Told trail ()
  /-- A rule that was run and broken is found, with its field and its message, and each look at the
  collector tells whether one was found before. -/
  follows : Follows Finds [] trail found
  /-- No other trail is one of these rules. -/
  unique : ∀ trail' found', (Validate.rules value).Told trail' () → Follows Finds [] trail' found' →
    trail' = trail
  /-- Both validators run the same rules. -/
  asked : ∀ validator : Validator, ((Validate.rules value).run (Program.note Violations.answer)
    (validator.collector, [])).2.2 = trail
  /-- After each rule both collectors hold what they have room for, so both are empty or none is. -/
  collected : ∀ before after found, trail = before ++ after → Follows Finds [] before found →
    (({ failFast := false } : Validator).collector.after before).items = found ∧
    (({ failFast := true } : Validator).collector.after before).items = found.take 1 ∧
    (({ failFast := false } : Validator).collector.after before).isEmpty =
      (({ failFast := true } : Validator).collector.after before).isEmpty
  full : Validator.validate { failFast := false } value =
    if found = [] then .ok () else .error ⟨found⟩
  failFast : Validator.validate { failFast := true } value =
    match found with
    | [] => .ok ()
    | first :: _ => .error ⟨[first]⟩
  accepted : Validator.validate { failFast := false } value = .ok () ↔
    Validator.validate { failFast := true } value = .ok ()

theorem checked_of_trail {value : α} (htold : (Validate.rules value).Told trail ())
    (h : Follows Finds [] trail found) : Checked value trail found where
  told := htold
  follows := h
  unique _ _ htold' h' := Validator.trail_unique htold h htold' h'
  asked validator := by
    rw [← validator.collected_nil, validator.run_note_collected htold h, List.nil_append]
  collected before after found _ hbefore := by
    have hcollector (validator : Validator) :
        validator.collector.after before = validator.collected found := by
      rw [← validator.collected_nil, Validator.after_collected hbefore]
    refine ⟨congrArg Violations.items (hcollector _), congrArg Violations.items (hcollector _), ?_⟩
    rw [hcollector, hcollector, Validator.isEmpty_collected, Validator.isEmpty_collected]
  full := Validator.validate_of_trail _ htold h
  failFast := by
    rw [Validator.validate_of_trail _ htold h]
    cases found <;> rfl
  accepted := by
    rw [Validator.validate_of_trail _ htold h, Validator.validate_of_trail _ htold h]
    by_cases hnone : found = [] <;> simp [hnone]

/-- How payloads of a type, lists of them, and optional ones are checked. -/
structure Traversed (α : Type) [Validate α] : Prop where
  checked : ∀ value : α, ∃ trail found, Checked value trail found
  none : ∀ trail, (Validate.rules (none : Option α)).Told trail () ↔ trail = []
  some : ∀ (value : α) trail,
    (Validate.rules (some value)).Told trail () ↔ (Validate.rules value).Told trail ()
  items : ∀ (items : List α) trail, (Validate.rules items).Told trail () ↔
    ∃ trails, List.Forall₂ (fun item trail => (Validate.rules item).Told trail ()) items trails ∧
      trail = trails.flatten

/-- Whatever the rules of a type are, and however deep lists and optional values of it are nested: both
validators run the same rules in the order of the value, one reports all that are broken, and the other
the first of them. -/
theorem traversed (α : Type) [Validate α] : Traversed α where
  checked value := by
    obtain ⟨trail, found, htold, h⟩ := Validation.exists_trail (Validate.rules value) []
    exact ⟨trail, found, checked_of_trail htold h⟩
  none _ := and_iff_left rfl
  some _ _ := Iff.rfl
  items items trail := by
    refine Validation.told_inOrder.trans (exists_congr fun trails => ?_)
    rw [List.forall₂_map_left_iff]

end Validate

end Courier
