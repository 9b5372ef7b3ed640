import Courier.Text.Utf8

/-!
# Written text reads back

Bytes are read with replacement characters where they are no valid UTF-8. The bytes of a text are
valid, so none are put in: `lossyText_ofText` says that they read as the text that they were
written for. It is proved one character at a time (`lossyChars_encodeChar`), by the number of its
bytes: what they are is arithmetic on the character's number, and so is what is read from them.
-/

namespace Courier.Bytes

/-! ## Bytes by their numbers -/

theorem isContinuation_iff {byte : UInt8} :
    isContinuation byte = true ↔ 0x80 ≤ byte.toNat ∧ byte.toNat ≤ 0xBF := by
  simp [isContinuation, UInt8.le_iff_toNat_le]

theorem widthOf_one {lead : UInt8} (h : lead.toNat ≤ 0x7F) : widthOf lead = some 1 := by
  simp only [widthOf, UInt8.lt_iff_toNat_lt, UInt8.reduceToNat]
  rw [if_pos (by omega)]

theorem widthOf_two {lead : UInt8} (h : 0xC2 ≤ lead.toNat) (h' : lead.toNat ≤ 0xDF) :
    widthOf lead = some 2 := by
  simp only [widthOf, UInt8.lt_iff_toNat_lt, UInt8.le_iff_toNat_le, UInt8.reduceToNat]
  rw [if_neg (by omega), if_pos (by simp [h, h'])]

theorem widthOf_three {lead : UInt8} (h : 0xE0 ≤ lead.toNat) (h' : lead.toNat ≤ 0xEF) :
    widthOf lead = some 3 := by
  simp only [widthOf, UInt8.lt_iff_toNat_lt, UInt8.le_iff_toNat_le, UInt8.reduceToNat]
  rw [if_neg (by omega), if_neg (by simp; omega), if_pos (by simp [h, h'])]

theorem widthOf_four {lead : UInt8} (h : 0xF0 ≤ lead.toNat) (h' : lead.toNat ≤ 0xF4) :
    widthOf lead = some 4 := by
  simp only [widthOf, UInt8.lt_iff_toNat_lt, UInt8.le_iff_toNat_le, UInt8.reduceToNat]
  rw [if_neg (by omega), if_neg (by simp; omega), if_neg (by simp; omega), if_pos (by simp [h, h'])]

/-- A second byte that continues a character is ruled out after four leads only: there the number
would have a shorter form, or would be that of no character. -/
theorem allowsSecond_of {lead second : UInt8} (h : isContinuation second = true)
    (hE0 : lead.toNat = 0xE0 → 0xA0 ≤ second.toNat)
    (hED : lead.toNat = 0xED → second.toNat ≤ 0x9F)
    (hF0 : lead.toNat = 0xF0 → 0x90 ≤ second.toNat)
    (hF4 : lead.toNat = 0xF4 → second.toNat ≤ 0x8F) : allowsSecond lead second = true := by
  have hs := isContinuation_iff.mp h
  simp only [allowsSecond, beq_iff_eq, ← UInt8.toNat_inj, UInt8.reduceToNat]
  split
  · simp [UInt8.le_iff_toNat_le, hE0 ‹_›, hs]
  split
  · simp [UInt8.le_iff_toNat_le, hED ‹_›, hs]
  split
  · simp [UInt8.le_iff_toNat_le, hF0 ‹_›, hs]
  split
  · simp [UInt8.le_iff_toNat_le, hF4 ‹_›, hs]
  · exact h

/-- A byte that carries the last six bits of a number. -/
theorem toNat_tail (n : Nat) : (UInt8.ofNat (n % 64 + 128)).toNat = n % 64 + 128 :=
  UInt8.toNat_ofNat_of_lt' (by rw [UInt8.size]; omega)

theorem isContinuation_tail (n : Nat) : isContinuation (UInt8.ofNat (n % 64 + 128)) = true :=
  isContinuation_iff.mpr (by rw [toNat_tail]; omega)

/-! ## One character -/

theorem continued_two {lead second : UInt8} {rest : Bytes} (h : isContinuation second = true) :
    continued lead 2 (second :: rest) = 1 := by
  simp [continued, h]

theorem continued_more {lead second : UInt8} {more rest : Bytes} (hmore : more ≠ [])
    (h : allowsSecond lead second = true) (hc : ∀ b ∈ more, isContinuation b = true) :
    continued lead (more.length + 2) (second :: (more ++ rest)) = more.length + 1 := by
  have hpos := List.length_pos_iff.mpr hmore
  have htake : (more ++ rest).take more.length = more := List.take_left
  have hwhile : (more ++ []).takeWhile isContinuation = more ++ [].takeWhile isContinuation :=
    List.takeWhile_append_of_pos hc
  rw [List.append_nil, List.takeWhile_nil, List.append_nil] at hwhile
  simp only [continued, h, if_true, Nat.add_sub_cancel, htake, hwhile]
  rw [if_neg (by omega), if_neg (by omega)]
  omega

/-- A lead and as many continuing bytes as it asks for are read as the character they spell. -/
theorem lossyChars_spelt {lead : UInt8} {bytes rest : Bytes}
    (hw : widthOf lead = some (bytes.length + 1))
    (hc : continued lead (bytes.length + 1) (bytes ++ rest) = bytes.length) :
    lossyChars (lead :: (bytes ++ rest)) = spell lead bytes :: lossyChars rest := by
  rw [lossyChars, hw]
  simp [hc]

/-! The four sizes, by the number that the bytes carry. -/

theorem lossyChars_one {v : Nat} (h : v ≤ 0x7F) (rest : Bytes) :
    lossyChars (UInt8.ofNat v :: rest) = Char.ofNat v :: lossyChars rest := by
  have hlead : (UInt8.ofNat v).toNat = v := UInt8.toNat_ofNat_of_lt' (by rw [UInt8.size]; omega)
  rw [← List.nil_append rest,
    lossyChars_spelt (widthOf_one (by omega)) (by cases rest <;> rfl)]
  simp only [spell, List.foldl, List.length, hlead, List.nil_append]

theorem lossyChars_two {v : Nat} (h : 0x7F < v) (h' : v ≤ 0x7FF) (rest : Bytes) :
    lossyChars (UInt8.ofNat (v / 64 % 32 + 192) :: ([UInt8.ofNat (v % 64 + 128)] ++ rest)) =
      Char.ofNat v :: lossyChars rest := by
  have hlead : (UInt8.ofNat (v / 64 % 32 + 192)).toNat = v / 64 % 32 + 192 :=
    UInt8.toNat_ofNat_of_lt' (by rw [UInt8.size]; omega)
  rw [lossyChars_spelt (widthOf_two (by omega) (by omega)) (continued_two (isContinuation_tail v))]
  simp only [spell, List.foldl, List.length, hlead, toNat_tail]
  congr 2
  omega

theorem lossyChars_three {v : Nat} (h : 0x7FF < v) (h' : v ≤ 0xFFFF)
    (hvalid : v < 55296 ∨ 57343 < v) (rest : Bytes) :
    lossyChars (UInt8.ofNat (v / 4096 % 16 + 224) ::
        ([UInt8.ofNat (v / 64 % 64 + 128), UInt8.ofNat (v % 64 + 128)] ++ rest)) =
      Char.ofNat v :: lossyChars rest := by
  have hlead : (UInt8.ofNat (v / 4096 % 16 + 224)).toNat = v / 4096 % 16 + 224 :=
    UInt8.toNat_ofNat_of_lt' (by rw [UInt8.size]; omega)
  have hsecond : allowsSecond (UInt8.ofNat (v / 4096 % 16 + 224))
      (UInt8.ofNat (v / 64 % 64 + 128)) = true := by
    apply allowsSecond_of (isContinuation_tail _) <;> rw [hlead, toNat_tail] <;> omega
  have hmore : ∀ b ∈ [UInt8.ofNat (v % 64 + 128)], isContinuation b = true := by
    simp only [List.forall_mem_singleton, isContinuation_tail]
  rw [lossyChars_spelt (widthOf_three (by omega) (by omega))
    (continued_more (List.cons_ne_nil _ _) hsecond hmore)]
  simp only [spell, List.foldl, List.length, hlead, toNat_tail]
  congr 2
  omega

theorem lossyChars_four {v : Nat} (h : 0xFFFF < v) (h' : v < 1114112) (rest : Bytes) :
    lossyChars (UInt8.ofNat (v / 262144 % 8 + 240) :: ([UInt8.ofNat (v / 4096 % 64 + 128),
        UInt8.ofNat (v / 64 % 64 + 128), UInt8.ofNat (v % 64 + 128)] ++ rest)) =
      Char.ofNat v :: lossyChars rest := by
  have hlead : (UInt8.ofNat (v / 262144 % 8 + 240)).toNat = v / 262144 % 8 + 240 :=
    UInt8.toNat_ofNat_of_lt' (by rw [UInt8.size]; omega)
  have hsecond : allowsSecond (UInt8.ofNat (v / 262144 % 8 + 240))
      (UInt8.ofNat (v / 4096 % 64 + 128)) = true := by
    apply allowsSecond_of (isContinuation_tail _) <;> rw [hlead, toNat_tail] <;> omega
  have hmore : ∀ b ∈ [UInt8.ofNat (v / 64 % 64 + 128), UInt8.ofNat (v % 64 + 128)],
      isContinuation b = true := by
    simp only [List.forall_mem_cons, List.not_mem_nil, isContinuation_tail, false_implies,
      implies_true, and_self]
  rw [lossyChars_spelt (widthOf_four (by omega) (by omega))
    (continued_more (List.cons_ne_nil _ _) hsecond hmore)]
  simp only [spell, List.foldl, List.length, hlead, toNat_tail]
  congr 2
  omega

/-- The bytes of a character are read as it, whatever bytes follow. -/
theorem lossyChars_encodeChar (c : Char) (rest : Bytes) :
    lossyChars (String.utf8EncodeChar c ++ rest) = c :: lossyChars rest := by
  have hvalid : c.val.toNat < 55296 ∨ 57343 < c.val.toNat ∧ c.val.toNat < 1114112 := c.valid
  suffices h : lossyChars (String.utf8EncodeChar c ++ rest) =
      Char.ofNat c.val.toNat :: lossyChars rest from
    h.trans (congrArg (· :: lossyChars rest) (Char.ofNat_toNat c))
  unfold String.utf8EncodeChar
  generalize c.val.toNat = v at hvalid
  simp only
  split
  · exact lossyChars_one ‹_› rest
  split
  · exact lossyChars_two (by omega) ‹_› rest
  split
  · exact lossyChars_three (by omega) ‹_› (hvalid.imp_right And.left) rest
  · exact lossyChars_four (by omega) (by omega) rest

/-! ## A text -/

theorem lossyChars_encode (chars : List Char) :
    lossyChars (chars.flatMap String.utf8EncodeChar) = chars := by
  induction chars with
  | nil => rw [List.flatMap_nil, lossyChars]
  | cons c rest ih => rw [List.flatMap_cons, lossyChars_encodeChar, ih]

theorem ofText_eq (text : String) : ofText text = text.toList.flatMap String.utf8EncodeChar := by
  rw [ofText, String.toUTF8_eq_toByteArray, ← String.utf8Encode_toList, List.utf8Encode,
    List.toList_data_toByteArray]

/-- Written text is read as it was. -/
@[simp] theorem lossyText_ofText (text : String) : (ofText text).lossyText = text := by
  rw [lossyText, ofText_eq, lossyChars_encode, String.ofList_toList]

end Courier.Bytes
