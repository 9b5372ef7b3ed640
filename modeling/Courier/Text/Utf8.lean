/-!
# Text and its bytes

Message bodies are bytes; text is stored in them as UTF-8. `Bytes.text?` reads bytes that are
valid UTF-8 and refuses all others, `Bytes.lossyText` reads any bytes and puts the replacement
character where they are not valid. `Bytes.text?_ofText` says that written text reads back.
-/

namespace Courier

/-- A message body. -/
abbrev Bytes := List UInt8

namespace Bytes

/-- The bytes of a text in UTF-8. -/
def ofText (text : String) : Bytes :=
  text.toUTF8.data.toList

/-- The text whose UTF-8 form the bytes are, if there is one. -/
def text? (bytes : Bytes) : Option String :=
  String.fromUTF8? ⟨bytes.toArray⟩

@[simp] theorem text?_ofText (text : String) : (ofText text).text? = some text := by
  unfold text? ofText String.fromUTF8?
  have h : (⟨text.toUTF8.data.toList.toArray⟩ : ByteArray) = text.toUTF8 := by simp
  rw [h, String.toUTF8_eq_toByteArray, dif_pos text.isValidUTF8]
  rfl

/-- Is the byte one that continues a character begun before it? -/
def isContinuation (byte : UInt8) : Bool :=
  0x80 ≤ byte && byte ≤ 0xBF

/-- The second bytes that may follow `lead` in a character of three or four bytes. -/
def allowsSecond (lead second : UInt8) : Bool :=
  if lead == 0xE0 then 0xA0 ≤ second && second ≤ 0xBF
  else if lead == 0xED then 0x80 ≤ second && second ≤ 0x9F
  else if lead == 0xF0 then 0x90 ≤ second && second ≤ 0xBF
  else if lead == 0xF4 then 0x80 ≤ second && second ≤ 0x8F
  else isContinuation second

/-- The length of a character that starts with `lead`, or none if no character does. -/
def widthOf (lead : UInt8) : Option Nat :=
  if lead < 0x80 then some 1
  else if 0xC2 ≤ lead && lead ≤ 0xDF then some 2
  else if 0xE0 ≤ lead && lead ≤ 0xEF then some 3
  else if 0xF0 ≤ lead && lead ≤ 0xF4 then some 4
  else none

/-- How many bytes of `rest` go on with the character begun by `lead`: as many as a valid
character could have there, at most `width - 1`. -/
def continued (lead : UInt8) (width : Nat) (rest : Bytes) : Nat :=
  match rest with
  | [] => 0
  | second :: more =>
    if width < 2 then 0
    else if width = 2 then if isContinuation second then 1 else 0
    else if allowsSecond lead second then
      1 + ((more.take (width - 2)).takeWhile isContinuation).length
    else 0

/-- The character that `lead` and its continuation bytes spell. -/
def spell (lead : UInt8) (continuation : Bytes) : Char :=
  let bits := continuation.foldl (fun n b => n * 64 + b.toNat % 64) <|
    match continuation.length with
    | 0 => lead.toNat
    | 1 => lead.toNat % 32
    | 2 => lead.toNat % 16
    | _ => lead.toNat % 8
  Char.ofNat bits

/-- The characters of any bytes. The longest beginning of a character that does not go on, and
each byte that begins none, becomes one replacement character. -/
def lossyChars : Bytes → List Char
  | [] => []
  | lead :: rest =>
    match widthOf lead with
    | none => '\uFFFD' :: lossyChars rest
    | some width =>
      let n := continued lead width rest
      let char := if n + 1 = width then spell lead (rest.take n) else '\uFFFD'
      char :: lossyChars (rest.drop n)
termination_by bytes => bytes.length
decreasing_by all_goals (simp only [List.length_cons, List.length_drop]; omega)

/-- The text of any bytes, with replacement characters where they are no valid UTF-8. -/
def lossyText (bytes : Bytes) : String :=
  String.ofList (lossyChars bytes)

end Bytes

end Courier
