import Courier.Proofs.Dialogue
import Courier.Validation

/-!
# What validators report

`Finds` is a rule: it is broken and joins those found before, or it is kept, and a look at the collector
tells whether any was found. What a value asks of the collector is so fixed by its rules
(`exists_trail`), and a collector with a limit of one is told the same as one without, since it holds
the first of what the other holds (`answer_collected`). So rules run in the same way on both
(`run_note_collected`).

All that the rules of a value record without a limit are its broken rules. A validator accepts a value
without broken rules, and else reports them, or only the first one if it fails fast (`validate_eq`).
-/

namespace Courier

open Program (Follows)

/-- A rule is run, or the collector is looked at, where these rules were found to be broken. -/
inductive Validation.Finds (found : List Violation) :
    (r : Validation.Request) → Requests.Answer r → List Violation → Prop where
  | kept (field message : String) : Finds found (.check field true message) () found
  | broken (field message : String) :
      Finds found (.check field false message) () (found ++ [⟨field, message⟩])
  | looked : Finds found .isEmpty (decide (found = [])) found

open Validation (Finds)

variable {α : Type} [Validate α] {validator : Validator} {rules : Validation}
  {found found' : List Violation} {trail : List (Program.Event Validation.Request)}

/-- Rules ask for something, whatever was found before, and are answered. -/
theorem Validation.exists_trail (rules : Validation) (found : List Violation) :
    ∃ trail found', rules.Told trail () ∧ Follows Finds found trail found' := by
  induction rules generalizing found with
  | done result => exact ⟨[], found, ⟨rfl, rfl⟩, rfl⟩
  | ask r next ih =>
    have go {a : Requests.Answer r} {found₁ : List Violation} (h : Finds found r a found₁) :
        ∃ trail found', (Program.ask r next).Told trail () ∧ Follows Finds found trail found' := by
      obtain ⟨trail, found', htold, hfollows⟩ := ih a found₁
      exact ⟨⟨r, a⟩ :: trail, found', ⟨a, trail, rfl, htold⟩, found₁, h, hfollows⟩
    cases r with
    | isEmpty => exact go .looked
    | check field holds message =>
      cases holds with
      | true => exact go (.kept field message)
      | false => exact go (.broken field message)

/-- The broken rules of a value, in the order of the rules. -/
def Validate.broken (value : α) : List Violation :=
  (({} : Violations).run (Validate.rules value)).items

namespace Validator

/-- What is reported of broken rules. -/
def reported (validator : Validator) (broken : List Violation) : List Violation :=
  if validator.failFast then broken.take 1 else broken

/-- The collector of a validator where these rules were found to be broken. -/
def collected (validator : Validator) (found : List Violation) : Violations :=
  { validator.collector with items := validator.reported found }

theorem collected_nil (validator : Validator) : validator.collected [] = validator.collector := by
  simp [collected, collector, reported]

theorem reported_eq_nil : validator.reported found = [] ↔ found = [] := by
  unfold reported
  split <;> simp

theorem isEmpty_collected (validator : Validator) (found : List Violation) :
    (validator.collected found).isEmpty = decide (found = []) := by
  rw [Bool.eq_iff_iff, decide_eq_true_iff]
  exact List.isEmpty_iff.trans reported_eq_nil

/-- A collector that is full holds the first broken rule already. -/
theorem check_collected (validator : Validator) (found : List Violation) (field message : String) :
    (validator.collected found).check field false message =
      validator.collected (found ++ [⟨field, message⟩]) := by
  obtain ⟨failFast⟩ := validator
  cases failFast with
  | false => rfl
  | true => cases found <;> rfl

/-- Both collectors answer what is true of the rules that were found to be broken, and go on to hold
their part of them. -/
theorem answer_collected {r : Validation.Request} {a : Requests.Answer r} (h : Finds found r a found') :
    Violations.answer r (validator.collected found) = (a, validator.collected found') := by
  cases h with
  | kept field message => rfl
  | broken field message => exact congrArg (Prod.mk ()) (check_collected validator found field message)
  | looked => exact congrArg (·, validator.collected found) (isEmpty_collected validator found)

/-- Rules run in the same way on both collectors. -/
theorem run_note_collected (validator : Validator) (htold : rules.Told trail ())
    (h : Follows Finds found trail found') (before : List (Program.Event Validation.Request)) :
    rules.run (Program.note Violations.answer) (validator.collected found, before) =
      ((), validator.collected found', before ++ trail) := by
  induction rules generalizing found trail before with
  | done result =>
    obtain ⟨rfl, -⟩ := htold
    rw [List.append_nil]
    exact congrArg (fun found => ((), validator.collected found, before)) h.symm
  | ask r next ih =>
    obtain ⟨a, rest, rfl, hnext⟩ := htold
    obtain ⟨found₁, hfinds, hrest⟩ := h
    have hstep : Program.note Violations.answer r (validator.collected found, before) =
        (a, validator.collected found₁, before ++ [⟨r, a⟩]) := by
      simp only [Program.note, answer_collected hfinds]
    rw [Program.run, hstep]
    exact (ih a hnext hrest _).trans (by rw [List.append_assoc, List.singleton_append])

/-- Rules leave the collector with their part of what was found. -/
theorem run_collected (validator : Validator) (htold : rules.Told trail ())
    (h : Follows Finds [] trail found) : validator.collector.run rules = validator.collected found := by
  rw [← validator.collected_nil, Violations.run, ← Program.run_note _ _ (validator.collected [], []),
    validator.run_note_collected htold h]

theorem validate_of_trail (validator : Validator) {value : α}
    (htold : (Validate.rules value).Told trail ()) (h : Follows Finds [] trail found) :
    validator.validate value = if found = [] then .ok () else .error ⟨validator.reported found⟩ := by
  simp only [validate, outcome, validator.run_collected htold h, isEmpty_collected, decide_eq_true_iff]
  rfl

theorem validate_eq (validator : Validator) (value : α) :
    validator.validate value =
      if Validate.broken value = [] then .ok ()
      else .error ⟨validator.reported (Validate.broken value)⟩ := by
  obtain ⟨trail, found, htold, h⟩ := Validation.exists_trail (Validate.rules value) []
  have hbroken : Validate.broken value = found :=
    congrArg Violations.items (({} : Validator).run_collected htold h)
  rw [hbroken]
  exact validator.validate_of_trail htold h

end Validator

end Courier
