import Courier.Decimal.Scientific
import Courier.Json.Basic
import Courier.Text.Utf8

/-!
# Reading JSON text

A reader takes the bytes that are left and answers a value and the bytes behind it. Text is read
from left to right and the first fault ends the reading: the text may end too early, be no JSON,
or be JSON that does not fit the wanted type. Arrays and objects nest at most 127 deep.

Numbers keep their kind: digits alone that fit 64 bits are an integer, everything else, a negative
zero included, is a float. `skipValue` passes over a value that nobody wants; it does not look at
the size of numbers, at surrogates, at the encoding of strings or at the nesting.
-/

namespace Courier.Json

/-- How JSON text can fail to fit a type. -/
inductive Mismatch where
  | missingField
  | unknownVariant
  | duplicateField
  | invalidType
  | invalidValue
  | invalidLength
  | other
  deriving DecidableEq, Repr

/-- What can be wrong with a text. -/
inductive Fault where
  /-- The text ends within a value. -/
  | ended
  /-- The text is no JSON. -/
  | malformed
  /-- The text is JSON of another type. -/
  | mismatch (how : Mismatch)
  deriving DecidableEq, Repr

/-- The deepest nesting of arrays and objects, plus one. -/
def depthLimit : Nat := 128

/-- Blanks between the parts of a text. -/
def isBlankByte (b : UInt8) : Bool :=
  b == 0x20 || b == 0x0A || b == 0x09 || b == 0x0D

/-- The bytes from the first that is not blank. -/
def skipBlanks (bytes : Bytes) : Bytes :=
  bytes.dropWhile isBlankByte

/-- Is the byte a decimal digit? -/
def isDigit (b : UInt8) : Bool :=
  0x30 ≤ b && b ≤ 0x39

/-- The value of a decimal digit. -/
def digitValue (b : UInt8) : Nat :=
  b.toNat - 0x30

/-- The value of a hexadecimal digit. -/
def hexValue? (b : UInt8) : Option Nat :=
  if isDigit b then some (digitValue b)
  else if 0x61 ≤ b && b ≤ 0x66 then some (b.toNat - 0x61 + 10)
  else if 0x41 ≤ b && b ≤ 0x46 then some (b.toNat - 0x41 + 10)
  else none

/-- The rest of a word whose first letter has been seen. -/
def readWord : List Char → Bytes → Except Fault Bytes
  | [], bytes => .ok bytes
  | _ :: _, [] => .error .ended
  | c :: cs, b :: bytes =>
    if Char.ofUInt8 b = c then readWord cs bytes else .error .malformed

/-! ## Numbers -/

/-- A float from its sign, significand and power of ten. -/
def finishFloat (negative : Bool) (significand : Nat) (exponent : Int) (rest : Bytes) :
    Except Fault (Json × Bytes) :=
  match Decimal.toFloat? significand exponent with
  | some f => .ok (.float (if negative then -f else f), rest)
  | none => .error .malformed

/-- An integer from its sign and digits: a float if it is a negative zero or has no place in
64 bits with its sign. -/
def finishInteger (negative : Bool) (value : Nat) : Json :=
  if !negative then .int value
  else if value = 0 ∨ Int64.minValue.toInt.natAbs < value then
    .float (-(UInt64.ofNat value).toFloat)
  else .int (-(value : Int))

/-- The largest exponent that is read. -/
def maxExponent : Nat := Int32.maxValue.toNatClampNeg

/-- The digits of an exponent, of the given sign. -/
def readExponentDigits (negative : Bool) (significand : Nat) (exponent : Int) (up : Bool) :
    Bytes → Except Fault (Json × Bytes)
  | [] => .error .ended
  | bytes =>
    let digits := bytes.takeWhile isDigit
    let rest := bytes.dropWhile isDigit
    let value := digits.foldl (fun n d => n * 10 + digitValue d) 0
    if digits.isEmpty then .error .malformed
    else if maxExponent < value then
      if significand ≠ 0 ∧ up then .error .malformed
      else .ok (.float (if negative then -0.0 else 0.0), rest)
    else finishFloat negative significand (if up then exponent + value else exponent - value) rest

/-- What stands behind the mark of an exponent. -/
def readExponent (negative : Bool) (significand : Nat) (exponent : Int) :
    Bytes → Except Fault (Json × Bytes)
  | [] => .error .ended
  | b :: bytes =>
    match Char.ofUInt8 b with
    | '+' => readExponentDigits negative significand exponent true bytes
    | '-' => readExponentDigits negative significand exponent false bytes
    | _ => readExponentDigits negative significand exponent true (b :: bytes)

/-- What stands behind the point of a number. -/
def readFraction (negative : Bool) (significand : Nat) (exponent : Int) (bytes : Bytes) :
    Except Fault (Json × Bytes) :=
  let digits := bytes.takeWhile isDigit
  let rest := bytes.dropWhile isDigit
  if digits.isEmpty then .error (if rest.isEmpty then .ended else .malformed)
  else
    let kept := Decimal.take significand (digits.map digitValue)
    let exponent := exponent - kept.taken
    match rest with
    | [] => finishFloat negative kept.significand exponent []
    | b :: more =>
      if b == 0x65 || b == 0x45 then readExponent negative kept.significand exponent more
      else finishFloat negative kept.significand exponent (b :: more)

/-- A number without its sign. -/
def readUnsigned (negative : Bool) : Bytes → Except Fault (Json × Bytes)
  | [] => .error .ended
  | bytes =>
    let digits := bytes.takeWhile isDigit
    let rest := bytes.dropWhile isDigit
    if digits.isEmpty ∨ (digits.head? = some 0x30 ∧ 1 < digits.length) then .error .malformed
    else
      let kept := Decimal.take 0 (digits.map digitValue)
      let dropped := kept.left.length
      let whole : Except Fault (Json × Bytes) :=
        if dropped = 0 then .ok (finishInteger negative kept.significand, rest)
        else finishFloat negative kept.significand dropped rest
      match rest with
      | [] => whole
      | b :: more =>
        if b == 0x2E then readFraction negative kept.significand dropped more
        else if b == 0x65 || b == 0x45 then readExponent negative kept.significand dropped more
        else whole

/-- A number; its first byte is a digit or a minus sign. -/
def readNumber : Bytes → Except Fault (Json × Bytes)
  | [] => .error .ended
  | b :: bytes => if b == 0x2D then readUnsigned true bytes else readUnsigned false (b :: bytes)

/-! ## Strings -/

/-- Four hexadecimal digits. -/
def readHex : Bytes → Except Fault (Nat × Bytes)
  | a :: b :: c :: d :: rest =>
    match hexValue? a, hexValue? b, hexValue? c, hexValue? d with
    | some a, some b, some c, some d => .ok (((a * 16 + b) * 16 + c) * 16 + d, rest)
    | _, _, _, _ => .error .malformed
  | _ => .error .ended

/-- The character behind an escape by code; one beyond the first plane takes two escapes. -/
def readEscapedCode (bytes : Bytes) : Except Fault (Char × Bytes) := do
  let (unit, rest) ← readHex bytes
  if 0xDC00 ≤ unit ∧ unit ≤ 0xDFFF then .error .malformed
  else if unit < 0xD800 ∨ 0xDBFF < unit then .ok (Char.ofNat unit, rest)
  else
    match rest with
    | [] => .error .ended
    | [b] => .error (if b == 0x5C then .ended else .malformed)
    | b :: u :: rest =>
      if b == 0x5C && u == 0x75 then do
        let (low, rest) ← readHex rest
        if low < 0xDC00 ∨ 0xDFFF < low then .error .malformed
        else .ok (Char.ofNat (0x10000 + (unit - 0xD800) * 0x400 + (low - 0xDC00)), rest)
      else .error .malformed

/-- The character that a short escape stands for. -/
def shortEscape? (b : UInt8) : Option Char :=
  match Char.ofUInt8 b with
  | '"' => some '"'
  | '\\' => some '\\'
  | '/' => some '/'
  | 'b' => some '\x08'
  | 'f' => some '\x0c'
  | 'n' => some '\n'
  | 'r' => some '\r'
  | 't' => some '\t'
  | _ => none

/-- The bytes of a string up to its closing quote, escapes resolved. The first argument bounds
the number of steps. -/
def readContent : Nat → Bytes → Except Fault (Bytes × Bytes)
  | 0, _ => .error .ended
  | _ + 1, [] => .error .ended
  | steps + 1, b :: bytes =>
    if b == 0x22 then .ok ([], bytes)
    else if b == 0x5C then
      match bytes with
      | [] => .error .ended
      | e :: bytes =>
        match shortEscape? e with
        | some c => do
          let (content, rest) ← readContent steps bytes
          .ok (String.utf8EncodeChar c ++ content, rest)
        | none =>
          if e == 0x75 then do
            let (c, bytes) ← readEscapedCode bytes
            let (content, rest) ← readContent steps bytes
            .ok (String.utf8EncodeChar c ++ content, rest)
          else .error .malformed
    else if b < 0x20 then .error .malformed
    else do
      let (content, rest) ← readContent steps bytes
      .ok (b :: content, rest)

/-- A string behind its opening quote. -/
def readText (bytes : Bytes) : Except Fault (String × Bytes) := do
  let (content, rest) ← readContent (bytes.length + 1) bytes
  match content.text? with
  | some value => .ok (value, rest)
  | none => .error .malformed

/-! ## Values -/

/-- What stands where an array goes on: its end, or the first byte of a further item. -/
def readItemStart (first : Bool) (bytes : Bytes) : Except Fault (Option Bytes) :=
  match skipBlanks bytes with
  | [] => .error .ended
  | b :: rest =>
    if b == 0x5D then .ok none
    else if first then .ok (some (b :: rest))
    else if b == 0x2C then
      match skipBlanks rest with
      | [] => .error .ended
      | c :: rest => if c == 0x5D then .error .malformed else .ok (some (c :: rest))
    else .error .malformed

/-- What stands where an object goes on: its end, or the bytes of a key behind its quote. -/
def readKeyStart (first : Bool) (bytes : Bytes) : Except Fault (Option Bytes) :=
  let key : Bytes → Except Fault (Option Bytes)
    | [] => .error .ended
    | b :: rest => if b == 0x22 then .ok (some rest) else .error .malformed
  match skipBlanks bytes with
  | [] => .error .ended
  | b :: rest =>
    if b == 0x7D then .ok none
    else if first then key (b :: rest)
    else if b == 0x2C then key (skipBlanks rest)
    else .error .malformed

/-- The bytes behind the end of an array or object that is known to end here. -/
def closed (bytes : Bytes) : Bytes :=
  (skipBlanks bytes).drop 1

/-- The colon behind a key. -/
def readColon (bytes : Bytes) : Except Fault Bytes :=
  match skipBlanks bytes with
  | [] => .error .ended
  | b :: rest => if b == 0x3A then .ok rest else .error .malformed

mutual

/-- A value of any type. The first argument bounds the number of steps, the second the nesting. -/
def readValue : Nat → Nat → Bytes → Except Fault (Json × Bytes)
  | 0, _, _ => .error .ended
  | steps + 1, depth, bytes =>
    match skipBlanks bytes with
    | [] => .error .ended
    | b :: rest =>
      match Char.ofUInt8 b with
      | 'n' => do .ok (.null, ← readWord ['u', 'l', 'l'] rest)
      | 't' => do .ok (.bool true, ← readWord ['r', 'u', 'e'] rest)
      | 'f' => do .ok (.bool false, ← readWord ['a', 'l', 's', 'e'] rest)
      | '"' => do
        let (value, rest) ← readText rest
        .ok (.text value, rest)
      | '[' =>
        if depth ≤ 1 then .error .malformed
        else do
          let (items, rest) ← readItems steps (depth - 1) true rest
          .ok (.array items, rest)
      | '{' =>
        if depth ≤ 1 then .error .malformed
        else do
          let (members, rest) ← readMembers steps (depth - 1) true [] rest
          .ok (.object members, rest)
      | _ => if b == 0x2D || isDigit b then readNumber (b :: rest) else .error .malformed

/-- The items of an array, from the first or a later one on. -/
def readItems : Nat → Nat → Bool → Bytes → Except Fault (List Json × Bytes)
  | 0, _, _, _ => .error .ended
  | steps + 1, depth, first, bytes => do
    match ← readItemStart first bytes with
    | none => .ok ([], closed bytes)
    | some bytes =>
      let (item, bytes) ← readValue steps depth bytes
      let (items, rest) ← readItems steps depth false bytes
      .ok (item :: items, rest)

/-- The members of an object, from the first or a later one on, added to those read before. -/
def readMembers : Nat → Nat → Bool → Object → Bytes → Except Fault (Object × Bytes)
  | 0, _, _, _, _ => .error .ended
  | steps + 1, depth, first, members, bytes => do
    match ← readKeyStart first bytes with
    | none => .ok (members, closed bytes)
    | some bytes =>
      let (key, bytes) ← readText bytes
      let bytes ← readColon bytes
      let (value, bytes) ← readValue steps depth bytes
      readMembers steps depth false (Object.insert key value members) bytes

end

/-- More steps than reading the bytes can take. -/
def stepsFor (bytes : Bytes) : Nat :=
  2 * bytes.length + 2

/-! ## Values that nobody wants -/

/-- The digits behind the mark of an exponent, and its sign. -/
def skipExponent (bytes : Bytes) : Except Fault Bytes :=
  let unsigned := match bytes with
    | b :: rest => if b == 0x2B || b == 0x2D then rest else b :: rest
    | [] => []
  if (unsigned.takeWhile isDigit).isEmpty then .error .malformed
  else .ok (unsigned.dropWhile isDigit)

/-- What stands behind the digits or the point of a number. -/
def skipNumberTail (pointAllowed : Bool) : Bytes → Except Fault Bytes
  | [] => .ok []
  | b :: rest =>
    if b == 0x65 || b == 0x45 then skipExponent rest
    else if b == 0x2E && pointAllowed then
      if (rest.takeWhile isDigit).isEmpty then .error .malformed
      else
        match rest.dropWhile isDigit with
        | [] => .ok []
        | e :: more => if e == 0x65 || e == 0x45 then skipExponent more else .ok (e :: more)
    else .ok (b :: rest)

/-- A number without its sign. -/
def skipNumber (bytes : Bytes) : Except Fault Bytes :=
  let digits := bytes.takeWhile isDigit
  if digits.isEmpty ∨ (digits.head? = some 0x30 ∧ 1 < digits.length) then .error .malformed
  else skipNumberTail true (bytes.dropWhile isDigit)

/-- A string behind its opening quote. The first argument bounds the number of steps. -/
def skipText : Nat → Bytes → Except Fault Bytes
  | 0, _ => .error .ended
  | _ + 1, [] => .error .ended
  | steps + 1, b :: bytes =>
    if b == 0x22 then .ok bytes
    else if b == 0x5C then
      match bytes with
      | [] => .error .ended
      | e :: bytes =>
        if (shortEscape? e).isSome then skipText steps bytes
        else if e == 0x75 then do
          let (_, bytes) ← readHex bytes
          skipText steps bytes
        else .error .malformed
    else if b < 0x20 then .error .malformed
    else skipText steps bytes

mutual

/-- A value of any type. The first argument bounds the number of steps. -/
def skipValue : Nat → Bytes → Except Fault Bytes
  | 0, _ => .error .ended
  | steps + 1, bytes =>
    match skipBlanks bytes with
    | [] => .error .ended
    | b :: rest =>
      match Char.ofUInt8 b with
      | 'n' => readWord ['u', 'l', 'l'] rest
      | 't' => readWord ['r', 'u', 'e'] rest
      | 'f' => readWord ['a', 'l', 's', 'e'] rest
      | '"' => skipText (rest.length + 1) rest
      | '[' => skipItems steps true rest
      | '{' => skipMembers steps true rest
      | '-' => skipNumber rest
      | _ => if isDigit b then skipNumber (b :: rest) else .error .malformed

/-- The items of an array. -/
def skipItems : Nat → Bool → Bytes → Except Fault Bytes
  | 0, _, _ => .error .ended
  | steps + 1, first, bytes => do
    match ← readItemStart first bytes with
    | none => .ok (closed bytes)
    | some bytes => skipItems steps false (← skipValue steps bytes)

/-- The members of an object. -/
def skipMembers : Nat → Bool → Bytes → Except Fault Bytes
  | 0, _, _ => .error .ended
  | steps + 1, first, bytes => do
    match ← readKeyStart first bytes with
    | none => .ok (closed bytes)
    | some bytes =>
      let bytes ← skipText (bytes.length + 1) bytes
      let bytes ← readColon bytes
      skipMembers steps false (← skipValue steps bytes)

end

/-! ## Whole texts -/

/-- Read a whole text: behind the value there are only blanks. -/
def readAll {α : Type} (read : Bytes → Except Fault (α × Bytes)) (bytes : Bytes) :
    Except Fault α := do
  let (value, rest) ← read bytes
  if (skipBlanks rest).isEmpty then .ok value else .error .malformed

/-- The value that a text spells. -/
def decode (bytes : Bytes) : Except Fault Json :=
  readAll (readValue (stepsFor bytes) depthLimit) bytes

end Courier.Json
