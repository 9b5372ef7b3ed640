import Courier.Decimal.Shortest
import Courier.Json.Basic
import Courier.Text.Utf8

/-!
# JSON text

`Json.encode` writes a value as compact text: no blanks, members in the order in which the object
holds them. In a string only the quote, the backslash and the characters below U+0020 are escaped,
those with a short form by it and the others by their code. A float is written by its shortest
digits, with a fraction even if it is whole, and with an exponent from 1e16 on and below 1e-5.
-/

namespace Courier.Json

/-- Floats are positional from 1e-5 up to 1e16; exponents have a sign and no leading zeros. -/
def floatLayout : Decimal.Layout :=
  ⟨-5, 15, "e", "+", 1⟩

/-- The byte of an ASCII character. -/
def ascii (c : Char) : UInt8 :=
  UInt8.ofNat c.toNat

/-- The bytes of ASCII text. -/
def asciiText (text : String) : Bytes :=
  text.toList.map ascii

/-- A digit from 0 to 15 as a lower case hexadecimal digit. -/
def hexDigit (n : Nat) : UInt8 :=
  if n < 10 then UInt8.ofNat (0x30 + n) else UInt8.ofNat (0x61 + (n - 10))

/-- A character as it stands between the quotes of a string. -/
def encodeChar (c : Char) : Bytes :=
  match c with
  | '"' => asciiText "\\\""
  | '\\' => asciiText "\\\\"
  | '\x08' => asciiText "\\b"
  | '\x0c' => asciiText "\\f"
  | '\n' => asciiText "\\n"
  | '\r' => asciiText "\\r"
  | '\t' => asciiText "\\t"
  | c =>
    if c.toNat < 0x20 then asciiText "\\u00" ++ [hexDigit (c.toNat / 16), hexDigit (c.toNat % 16)]
    else String.utf8EncodeChar c

/-- A string with its quotes. -/
def encodeText (text : String) : Bytes :=
  ascii '"' :: text.toList.flatMap encodeChar ++ [ascii '"']

/-- An integer in decimal digits. -/
def encodeInt : Int → Bytes
  | .ofNat n => (Nat.toDigits 10 n).map ascii
  | .negSucc n => ascii '-' :: (Nat.toDigits 10 (n + 1)).map ascii

mutual

/-- The compact text of a value. -/
def encode : Json → Bytes
  | .null => asciiText "null"
  | .bool true => asciiText "true"
  | .bool false => asciiText "false"
  | .int value => encodeInt value
  | .float value => asciiText (floatLayout.writeFloat value)
  | .text value => encodeText value
  | .array items => ascii '[' :: encodeItems items
  | .object members => ascii '{' :: encodeMembers members

/-- The items of an array and the bracket that closes it. -/
def encodeItems : List Json → Bytes
  | [] => [ascii ']']
  | item :: rest => encode item ++ encodeMoreItems rest

/-- The items of an array after its first one, and the bracket that closes it. -/
def encodeMoreItems : List Json → Bytes
  | [] => [ascii ']']
  | item :: rest => ascii ',' :: encode item ++ encodeMoreItems rest

/-- The members of an object and the brace that closes it. -/
def encodeMembers : List (String × Json) → Bytes
  | [] => [ascii '}']
  | (key, value) :: rest => encodeText key ++ ascii ':' :: encode value ++ encodeMoreMembers rest

/-- The members of an object after its first one, and the brace that closes it. -/
def encodeMoreMembers : List (String × Json) → Bytes
  | [] => [ascii '}']
  | (key, value) :: rest =>
    ascii ',' :: encodeText key ++ ascii ':' :: encode value ++ encodeMoreMembers rest

end

end Courier.Json
