/-!
# Refused encodings

A value may refuse to be written as JSON, with a text that says why. A text that ends with a place,
written ` at line L column C`, is a message about that place. `Refusal.ofText` takes it apart and
`Refusal.text` puts it together again, so the numbers lose their leading zeros. Lines count from
one: a place on line zero is no place, and it is left out.
-/

namespace Courier.Json

/-- A place in a text. -/
structure Place where
  line : Nat
  column : Nat
  deriving DecidableEq, Repr

/-- Why a value cannot be written. -/
structure Refusal where
  message : String
  place : Option Place := none
  deriving DecidableEq, Repr

/-- A number in front of a text, if it fits 64 bits. -/
def Place.readNumber? (cs : List Char) : Option (Nat × List Char) :=
  let digits := cs.takeWhile Char.isDigit
  let value := Nat.ofDigitChars 10 digits 0
  if digits ≠ [] ∧ value < UInt64.size then some (value, cs.dropWhile Char.isDigit) else none

/-- The place that a text spells. -/
def Place.ofChars? (cs : List Char) : Option Place := do
  let cs ← " at line ".toList.isPrefixOf? cs
  let (line, cs) ← Place.readNumber? cs
  let cs ← " column ".toList.isPrefixOf? cs
  let (column, cs) ← Place.readNumber? cs
  if cs.isEmpty then some ⟨line, column⟩ else none

/-- The place at the end of a text, and what stands before it. -/
def Place.split? : List Char → Option (List Char × Place)
  | [] => none
  | c :: cs =>
    match Place.ofChars? (c :: cs) with
    | some place => some ([], place)
    | none => (Place.split? cs).map fun (before, place) => (c :: before, place)

namespace Refusal

/-- The refusal that a text stands for. -/
def ofText (text : String) : Refusal :=
  match Place.split? text.toList with
  | none => ⟨text, none⟩
  | some (before, place) =>
    ⟨String.ofList before, if place.line = 0 then none else some place⟩

/-- The text of a refusal. -/
def text (r : Refusal) : String :=
  match r.place with
  | none => r.message
  | some place => s!"{r.message} at line {place.line} column {place.column}"

/-- A text that ends with no place is kept as it is. -/
theorem text_ofText_of_split? {s : String} (h : Place.split? s.toList = none) :
    (ofText s).text = s := by
  simp [ofText, text, h]

end Refusal

end Courier.Json
