import Courier.Json.Reader

/-!
# Reading typed values

A `Reader α` reads an `α` straight from the text, so the first fault on the way from left to right
decides, be it a fault of the text or a mismatch of types. Records are read from an object, or from
an array that holds their fields in order. A member that is no field is passed over; fields that
are missing are noticed where the object ends.
-/

namespace Courier.Json

/-- A reader of one type: it gets the nesting that is left and the bytes. -/
abbrev Reader (α : Type) := Nat → Bytes → Except Fault (α × Bytes)

/-- The whole text as one value of a type. -/
def decodeAs {α : Type} (reader : Reader α) (bytes : Bytes) : Except Fault α :=
  readAll (reader depthLimit) bytes

/-- The fault of a value that has not the wanted type. Only a scalar is read to its end first, so
its own faults win. -/
def wrongType {α : Type} (bytes : Bytes) : Except Fault α := do
  match bytes with
  | [] => .error .ended
  | b :: rest =>
    match Char.ofUInt8 b with
    | 'n' => let _ ← readWord ['u', 'l', 'l'] rest
    | 't' => let _ ← readWord ['r', 'u', 'e'] rest
    | 'f' => let _ ← readWord ['a', 'l', 's', 'e'] rest
    | '"' => let _ ← readText rest
    | '[' => pure ()
    | '{' => pure ()
    | _ =>
      if b == 0x2D || isDigit b then
        let _ ← readNumber (b :: rest)
      else .error .malformed
    .error (.mismatch .invalidType)

namespace Reader

/-- A string. -/
def text : Reader String := fun _ bytes =>
  match skipBlanks bytes with
  | 0x22 :: rest => readText rest
  | bytes => wrongType bytes

/-- A Boolean. -/
def flag : Reader Bool := fun _ bytes =>
  match skipBlanks bytes with
  | 0x74 :: rest => do .ok (true, ← readWord ['r', 'u', 'e'] rest)
  | 0x66 :: rest => do .ok (false, ← readWord ['a', 'l', 's', 'e'] rest)
  | bytes => wrongType bytes

/-- An integer between two bounds. -/
def intBetween (least greatest : Int) : Reader Int := fun _ bytes =>
  match skipBlanks bytes with
  | [] => .error .ended
  | b :: rest =>
    if b == 0x2D || isDigit b then do
      match ← readNumber (b :: rest) with
      | (.int value, rest) =>
        if least ≤ value ∧ value ≤ greatest then .ok (value, rest)
        else .error (.mismatch .invalidValue)
      | _ => .error (.mismatch .invalidType)
    else wrongType (b :: rest)

/-- A natural number below a bound. -/
def natBelow (bound : Nat) : Reader Nat := fun depth bytes => do
  let (value, rest) ← intBetween 0 (bound - 1) depth bytes
  .ok (value.toNat, rest)

/-- An integer of 64 bits. -/
def int64 : Reader Int := intBetween Int64.minValue.toInt Int64.maxValue.toInt

/-- Any value. -/
def free : Reader Json := fun depth bytes => readValue (stepsFor bytes) depth bytes

/-- Null, or a value. -/
def nullable {α : Type} (reader : Reader α) : Reader (Option α) := fun depth bytes =>
  match skipBlanks bytes with
  | 0x6E :: rest => do .ok (none, ← readWord ['u', 'l', 'l'] rest)
  | bytes => do
    let (value, rest) ← reader depth bytes
    .ok (some value, rest)

/-- An object whose members may be anything. -/
def headers : Reader Headers := fun depth bytes =>
  match skipBlanks bytes with
  | 0x7B :: rest =>
    if depth ≤ 1 then .error .malformed
    else readMembers (stepsFor rest) (depth - 1) true [] rest
  | bytes => wrongType bytes

/-- Items up to the end of an array. The first argument bounds the number of steps. -/
def itemsFrom {α : Type} (reader : Reader α) : Nat → Nat → Bool → Bytes →
    Except Fault (List α × Bytes)
  | 0, _, _, _ => .error .ended
  | steps + 1, depth, first, bytes => do
    match ← readItemStart first bytes with
    | none => .ok ([], closed bytes)
    | some bytes =>
      let (item, bytes) ← reader depth bytes
      let (items, rest) ← itemsFrom reader steps depth false bytes
      .ok (item :: items, rest)

/-- An array of values of one type. -/
def list {α : Type} (reader : Reader α) : Reader (List α) := fun depth bytes =>
  match skipBlanks bytes with
  | 0x5B :: rest =>
    if depth ≤ 1 then .error .malformed
    else itemsFrom reader (stepsFor rest) (depth - 1) true rest
  | bytes => wrongType bytes

/-- One of several names, given as a string or as the key of an object with the value null. -/
def oneOf {α : Type} (names : List (String × α)) : Reader α := fun depth bytes =>
  let pick (name : String) : Except Fault α :=
    match names.lookup name with
    | some value => .ok value
    | none => .error (.mismatch .unknownVariant)
  match skipBlanks bytes with
  | [] => .error .ended
  | 0x22 :: rest => do
    let (name, rest) ← readText rest
    .ok (← pick name, rest)
  | 0x7B :: rest =>
    if depth ≤ 1 then .error .malformed
    else do
      let some rest ← readKeyStart true rest | .error .malformed
      let (name, rest) ← readText rest
      let value ← pick name
      let rest ← readColon rest
      let rest ← match skipBlanks rest with
        | 0x6E :: rest => readWord ['u', 'l', 'l'] rest
        | rest => wrongType rest
      match skipBlanks rest with
      | [] => .error .ended
      | b :: rest => if b == 0x7D then .ok (value, rest) else .error .malformed
  | _ => .error .malformed

end Reader

/-! ## Records -/

/-- May a field be left out? -/
inductive Presence where
  /-- It may not. -/
  | required
  /-- It may, but not in an array. -/
  | optional
  /-- It may. -/
  | defaulted
  deriving DecidableEq, Repr

/-- A field of a record under construction: its name and how its value goes into the record. -/
structure RecordField (S : Type) where
  name : String
  presence : Presence
  read : Reader (S → S)

namespace RecordField

variable {S α : Type}

/-- A field whose value is put into the record by `put`. -/
def of (name : String) (presence : Presence) (reader : Reader α) (put : α → S → S) :
    RecordField S where
  name := name
  presence := presence
  read depth bytes := do
    let (value, rest) ← reader depth bytes
    .ok (put value, rest)

/-- A field that must be there. -/
def required (name : String) (reader : Reader α) (put : α → S → S) : RecordField S :=
  of name .required reader put

/-- A field that may be left out anywhere. -/
def defaulted (name : String) (reader : Reader α) (put : α → S → S) : RecordField S :=
  of name .defaulted reader put

/-- A field that may be left out of an object. -/
def optional (name : String) (reader : Reader α) (put : α → S → S) : RecordField S :=
  of name .optional reader put

end RecordField

/-- What becomes of a member that is no field. -/
inductive Unknown where
  | skipped
  | refused
  deriving DecidableEq, Repr

/-- The members of a record's object. The first argument bounds the number of steps; `seen` are
the names of the fields read so far. -/
def readFields {S : Type} (fields : List (RecordField S)) (unknown : Unknown) :
    Nat → Nat → Bool → List String → S → Bytes → Except Fault ((List String × S) × Bytes)
  | 0, _, _, _, _, _ => .error .ended
  | steps + 1, depth, first, seen, record, bytes => do
    match ← readKeyStart first bytes with
    | none => .ok ((seen, record), bytes)
    | some bytes =>
      let (name, bytes) ← readText bytes
      match fields.find? (·.name == name) with
      | some field =>
        if seen.contains name then .error (.mismatch .duplicateField)
        else
          let bytes ← readColon bytes
          let (put, bytes) ← field.read depth bytes
          readFields fields unknown steps depth false (name :: seen) (put record) bytes
      | none =>
        match unknown with
        | .refused => .error (.mismatch .other)
        | .skipped =>
          let bytes ← readColon bytes
          let bytes ← skipValue (stepsFor bytes) bytes
          readFields fields unknown steps depth false seen record bytes

/-- The fields of a record from the items of an array. -/
def readPositions {S : Type} :
    List (RecordField S) → Nat → Bool → S → Bytes → Except Fault (S × Bytes)
  | [], _, _, record, bytes => .ok (record, bytes)
  | field :: fields, depth, first, record, bytes => do
    match ← readItemStart first bytes with
    | none =>
      if field.presence = .defaulted then readPositions fields depth first record bytes
      else .error (.mismatch .invalidLength)
    | some bytes =>
      let (put, bytes) ← field.read depth bytes
      readPositions fields depth false (put record) bytes

/-- The end of an array that must end here. -/
def readArrayEnd (bytes : Bytes) : Except Fault Bytes :=
  match skipBlanks bytes with
  | [] => .error .ended
  | b :: rest => if b == 0x5D then .ok rest else .error .malformed

/-- A record, read into `start` field by field and completed by `finish`. -/
def Reader.record {S α : Type} (start : S) (fields : List (RecordField S)) (unknown : Unknown)
    (finish : S → Except Fault α) : Reader α := fun depth bytes =>
  match skipBlanks bytes with
  | 0x7B :: rest =>
    if depth ≤ 1 then .error .malformed
    else do
      let ((seen, record), rest) ← readFields fields unknown (stepsFor rest) (depth - 1) true []
        start rest
      if fields.any fun f => f.presence = .required && !seen.contains f.name then
        .error (.mismatch .missingField)
      else .ok (← finish record, closed rest)
  | 0x5B :: rest =>
    if depth ≤ 1 then .error .malformed
    else do
      let (record, rest) ← readPositions fields (depth - 1) true start rest
      let value ← finish record
      .ok (value, ← readArrayEnd rest)
  | bytes => wrongType bytes

/-- A record whose fields make up the value by themselves. -/
def Reader.plainRecord {S : Type} (start : S) (fields : List (RecordField S)) : Reader S :=
  Reader.record start fields .skipped .ok

end Courier.Json
