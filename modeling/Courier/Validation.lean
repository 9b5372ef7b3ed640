import Courier.Json.Basic
import Courier.Program
import Courier.Text.Blank

/-!
# Payload validation

A payload says by its rules what is required of it. Rules record what is broken in a collector and
go on; a collector with a limit records no more than that many violations. A validator runs the
rules on an empty collector, without a limit or, if it fails fast, with the limit one.

Rules are a program over the collector: `check` records, `isEmpty` looks. Every other rule is
built from `check`.
-/

namespace Courier

/-- One broken rule. -/
structure Violation where
  field : String
  message : String
  deriving DecidableEq, Repr

/-- What a payload's rules do to the collector. -/
inductive Validation.Request where
  /-- Record a violation unless the condition holds. -/
  | check (field : String) (holds : Bool) (message : String)
  /-- Has nothing been recorded? -/
  | isEmpty
  deriving DecidableEq, Repr

instance : Requests Validation.Request where
  Answer
    | .check .. => Unit
    | .isEmpty => Bool

/-- The rules of a payload. -/
abbrev Validation := Program Validation.Request Unit

/-- Broken rules collected so far, and how many are recorded at most. -/
structure Violations where
  items : List Violation := []
  limit : Option Nat := none
  deriving DecidableEq, Repr

namespace Violations

/-- Has nothing been recorded? -/
def isEmpty (violations : Violations) : Bool :=
  violations.items.isEmpty

/-- Is the limit reached? -/
def isFull (violations : Violations) : Bool :=
  match violations.limit with
  | some limit => limit ≤ violations.items.length
  | none => false

/-- Record a violation unless the condition holds or the limit is reached. -/
def check (violations : Violations) (field : String) (holds : Bool) (message : String) :
    Violations :=
  if !holds && !violations.isFull then
    { violations with items := violations.items ++ [⟨field, message⟩] }
  else violations

/-- What a rule's request answers and leaves behind. -/
def answer : (r : Validation.Request) → Violations → Requests.Answer r × Violations
  | .check field holds message, violations => ((), violations.check field holds message)
  | .isEmpty, violations => (violations.isEmpty, violations)

/-- Run rules on the collector. -/
def run (violations : Violations) (rules : Validation) : Violations :=
  (rules.run answer violations).2

end Violations

namespace Validation

/-- A rule of its own: record the message for the field unless the condition holds. -/
def check (field : String) (holds : Bool) (message : String) : Validation :=
  Program.request (Request.check field holds message)

/-- Nothing to check. -/
def none : Validation := .done ()

/-- The field is neither empty nor blank. -/
def required (field value : String) : Validation :=
  check field (!Text.isBlank value) "is required"

/-- Does the text look like an e-mail address: something before the first at sign, and behind it
a point that does not come first? -/
def looksLikeEmail (value : List Char) : Bool :=
  match value.dropWhile (· != '@') with
  | [] => false
  | _ :: domain =>
    !(value.takeWhile (· != '@')).isEmpty && domain.contains '.' && domain.head? != some '.'

/-- The field looks like an e-mail address. -/
def email (field value : String) : Validation :=
  check field (looksLikeEmail value.toList) "must be a valid email address"

/-- The field has between `least` and `greatest` characters. -/
def length (field value : String) (least greatest : Nat) : Validation :=
  check field (least ≤ value.length && value.length ≤ greatest)
    s!"length must be between {least} and {greatest}"

/-- Rules one after another. -/
def inOrder : List Validation → Validation
  | [] => none
  | rules :: rest => rules.bind fun _ => inOrder rest

end Validation

/-- Types whose values come with rules. -/
class Validate (α : Type) where
  rules : α → Validation

namespace Validate

instance : Validate Json := ⟨fun _ => Validation.none⟩

instance : Validate String := ⟨fun _ => Validation.none⟩

instance {α : Type} [Validate α] : Validate (Option α) where
  rules
    | some value => Validate.rules value
    | none => Validation.none

instance {α : Type} [Validate α] : Validate (List α) :=
  ⟨fun items => .inOrder (items.map Validate.rules)⟩

end Validate

/-- The broken rules of a payload. -/
structure ValidationError where
  violations : List Violation
  deriving DecidableEq, Repr

/-- The text of a validation error: every violation with its field. -/
def ValidationError.message (e : ValidationError) : String :=
  "Validation failed:" ++
    String.join (e.violations.map fun v => s!" {v.field} {v.message};") ++ "\n"

/-- Checks payloads where they enter or leave the service. -/
structure Validator where
  /-- Report only the first violation. -/
  failFast : Bool := false
  deriving DecidableEq, Repr

namespace Validator

/-- The collector that a validator starts with. -/
def collector (validator : Validator) : Violations :=
  { limit := if validator.failFast then some 1 else none }

/-- The collector after each of several rules. -/
def progress (validator : Validator) (rules : List Validation) : List Violations :=
  go validator.collector rules
where
  go (violations : Violations) : List Validation → List Violations
    | [] => []
    | rule :: rest =>
      let violations := violations.run rule
      violations :: go violations rest

/-- What rules record with this validator. -/
def outcome (validator : Validator) (rules : Validation) : Except ValidationError Unit :=
  let violations := validator.collector.run rules
  if violations.isEmpty then .ok () else .error ⟨violations.items⟩

/-- Check a value against its rules. -/
def validate {α : Type} [Validate α] (validator : Validator) (value : α) :
    Except ValidationError Unit :=
  validator.outcome (Validate.rules value)

end Validator

end Courier
