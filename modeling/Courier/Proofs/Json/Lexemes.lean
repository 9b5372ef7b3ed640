import Courier.Json.Printer
import Courier.Json.Reader
import Courier.Proofs.Text.Utf8

/-!
# Written numbers and strings read back

The two kinds of lexemes whose text is not fixed. An integer of 64 bits, of either sign, is read
from its digits as itself (`readNumber_encodeInt`), provided that what follows cannot go on with the
number: no digit, no point and no mark of an exponent (`Ends`). A string is read as itself whatever
follows, since its closing quote ends it (`readText_encodeText`): each character reads back from
its short escape, from its code or from the bytes that it stands as (`Recoverable`), and these are
never a quote, a backslash or a control character.
-/

namespace Courier

/-! ## Digits -/

namespace Decimal

theorem le_foldl_digits (digits : List Nat) (start : Nat) :
    start ≤ digits.foldl (fun n d => n * 10 + d) start := by
  induction digits generalizing start with
  | nil => exact Nat.le_refl start
  | cons d ds ih => exact Nat.le_trans (by omega) (ih (start * 10 + d))

/-- Digits whose number keeps within the bound are all taken. -/
theorem take_of_le (digits : List Nat) (start : Nat)
    (h : digits.foldl (fun n d => n * 10 + d) start ≤ maxSignificand) :
    take start digits =
      ⟨digits.foldl (fun n d => n * 10 + d) start, digits.length, []⟩ := by
  induction digits generalizing start with
  | nil => rfl
  | cons d ds ih =>
    have hstep : start * 10 + d ≤ maxSignificand := Nat.le_trans (le_foldl_digits ds _) h
    rw [take, if_pos hstep, ih (start * 10 + d) h]
    rfl

end Decimal

namespace Json

theorem toNat_ascii {c : Char} (h : c.toNat < 256) : (ascii c).toNat = c.toNat :=
  UInt8.toNat_ofNat_of_lt' h

theorem isDigit_iff {b : UInt8} : isDigit b = true ↔ 0x30 ≤ b.toNat ∧ b.toNat ≤ 0x39 := by
  simp [isDigit, UInt8.le_iff_toNat_le]

/-- The decimal digits of a number. -/
def digits (n : Nat) : Bytes :=
  (Nat.toDigits 10 n).map ascii

theorem toNat_ascii_of_isDigit {c : Char} (h : c.isDigit = true) :
    (ascii c).toNat = c.toNat ∧ 0x30 ≤ c.toNat ∧ c.toNat ≤ 0x39 := by
  have hc : 0x30 ≤ c.toNat ∧ c.toNat ≤ 0x39 := by
    simpa [Char.isDigit, UInt32.le_iff_toNat_le] using h
  exact ⟨toNat_ascii (by omega), hc⟩

theorem isDigit_of_mem_digits {n : Nat} {b : UInt8} (h : b ∈ digits n) : isDigit b = true := by
  obtain ⟨c, hc, rfl⟩ := List.mem_map.mp h
  have := toNat_ascii_of_isDigit (Nat.isDigit_of_mem_toDigits (by decide) (by decide) hc)
  exact isDigit_iff.mpr (by omega)

theorem digits_ne_nil (n : Nat) : digits n ≠ [] :=
  mt List.map_eq_nil_iff.mp Nat.toDigits_ne_nil

/-- Only zero begins with a zero. -/
theorem head?_toDigits_ne {n : Nat} (h : 0 < n) : (Nat.toDigits 10 n).head? ≠ some '0' := by
  induction n using Nat.strongRecOn with
  | ind n ih =>
    rcases Nat.lt_or_ge n 10 with hn | hn
    · rw [Nat.toDigits_of_lt_base hn]
      simp only [List.head?_cons, ne_eq, Option.some.injEq, Nat.digitChar_eq_zero]
      omega
    · have hmore : (Nat.toDigits 10 (n / 10)).head? ≠ some '0' := ih (n / 10) (by omega) (by omega)
      rw [List.head?_eq_some_head Nat.toDigits_ne_nil] at hmore
      rwa [Nat.toDigits_of_base_le (by decide) hn, List.head?_append,
        List.head?_eq_some_head Nat.toDigits_ne_nil, Option.some_or]

theorem head?_digits_ne {n : Nat} (h : 0 < n) : (digits n).head? ≠ some 0x30 := by
  rw [digits, List.head?_map]
  intro hhead
  obtain ⟨c, hc, hascii⟩ := Option.map_eq_some_iff.mp hhead
  have hmem := List.mem_of_mem_head? (Option.mem_def.mpr hc)
  have hdigit := Nat.isDigit_of_mem_toDigits (by decide) (by decide) hmem
  have hnat := (toNat_ascii_of_isDigit hdigit).1
  rw [hascii] at hnat
  exact head?_toDigits_ne h (hc.trans (congrArg some (Char.toNat_inj.mp hnat.symm)))

/-- The digits of a number are those of no shorter one with zeros in front. -/
theorem not_padded (n : Nat) :
    ¬ ((digits n).isEmpty = true ∨ ((digits n).head? = some 0x30 ∧ 1 < (digits n).length)) := by
  rintro (hempty | ⟨hhead, hlength⟩)
  · exact digits_ne_nil n (List.isEmpty_iff.mp hempty)
  · rcases Nat.eq_zero_or_pos n with rfl | hn
    · exact absurd hlength (by decide)
    · exact head?_digits_ne hn hhead

theorem foldl_digits (n : Nat) :
    ((digits n).map digitValue).foldl (fun v d => v * 10 + d) 0 = n := by
  have hvalue : ∀ c ∈ Nat.toDigits 10 n, digitValue (ascii c) = c.toNat - '0'.toNat := by
    intro c hc
    rw [digitValue, (toNat_ascii_of_isDigit
      (Nat.isDigit_of_mem_toDigits (by decide) (by decide) hc)).1]
    rfl
  calc ((digits n).map digitValue).foldl (fun v d => v * 10 + d) 0
      = ((Nat.toDigits 10 n).map fun c => c.toNat - '0'.toNat).foldl (fun v d => v * 10 + d) 0 := by
        rw [digits, List.map_map]
        exact congrArg _ (List.map_congr_left hvalue)
    _ = Nat.ofDigitChars 10 (Nat.toDigits 10 n) 0 := by
        rw [Nat.ofDigitChars_eq_foldl, List.foldl_map]
        simp only [Nat.mul_comm]
    _ = n := Nat.ofDigitChars_ten_toDigits

/-! ## Integers -/

/-- A number ends before these bytes: they do not begin with what could go on with it. -/
def Ends (rest : Bytes) : Prop :=
  ∀ b ∈ rest.head?, isDigit b = false ∧ b ≠ 0x2E ∧ b ≠ 0x65 ∧ b ≠ 0x45

theorem takeWhile_digits {n : Nat} {rest : Bytes} (h : Ends rest) :
    (digits n ++ rest).takeWhile isDigit = digits n := by
  rw [List.takeWhile_append_of_pos fun b hb => isDigit_of_mem_digits hb]
  cases rest with
  | nil => simp
  | cons b more => simp [(h b rfl).1]

theorem dropWhile_digits {n : Nat} {rest : Bytes} (h : Ends rest) :
    (digits n ++ rest).dropWhile isDigit = rest := by
  rw [List.dropWhile_append_of_pos fun b hb => isDigit_of_mem_digits hb]
  cases rest with
  | nil => simp
  | cons b more => simp [(h b rfl).1]

/-- The integers that keep their kind when they are read: those of 64 bits, with or without a
sign. -/
def InRange (value : Int) : Prop :=
  Int64.minValue.toInt ≤ value ∧ value ≤ UInt64.size - 1

instance (value : Int) : Decidable (InRange value) :=
  inferInstanceAs (Decidable (_ ∧ _))

theorem readUnsigned_digits {n : Nat} (hn : n ≤ Decimal.maxSignificand) (negative : Bool)
    {rest : Bytes} (h : Ends rest) :
    readUnsigned negative (digits n ++ rest) = .ok (finishInteger negative n, rest) := by
  have htake : Decimal.take 0 ((digits n).map digitValue) =
      ⟨n, ((digits n).map digitValue).length, []⟩ := by
    rw [Decimal.take_of_le _ _ (by rw [foldl_digits]; exact hn), foldl_digits]
  obtain ⟨d, ds, hds⟩ := List.exists_cons_of_ne_nil (digits_ne_nil n)
  have hwhile := takeWhile_digits (n := n) h
  have hdrop := dropWhile_digits (n := n) h
  rw [hds, List.cons_append] at hwhile hdrop ⊢
  simp only [readUnsigned, hwhile, hdrop, ← hds, if_neg (not_padded n), htake, List.length_nil,
    if_true]
  cases rest with
  | nil => rfl
  | cons b more =>
    obtain ⟨-, hpoint, he, hE⟩ := h b rfl
    simp [hpoint, he, hE]

/-- A number begins with a digit or with a minus sign. -/
theorem exists_encodeInt (value : Int) :
    ∃ b more, encodeInt value = b :: more ∧ (b == 0x2D || isDigit b) = true := by
  cases value with
  | ofNat n =>
    obtain ⟨d, ds, hds⟩ := List.exists_cons_of_ne_nil (digits_ne_nil n)
    have hd : isDigit d = true := isDigit_of_mem_digits (n := n) (by rw [hds]; exact List.mem_cons_self)
    exact ⟨d, ds, hds, by rw [hd, Bool.or_true]⟩
  | negSucc n => exact ⟨_, _, rfl, rfl⟩

/-- An integer of 64 bits is read from its digits. -/
theorem readNumber_encodeInt {value : Int} (hvalue : InRange value) {rest : Bytes} (h : Ends rest) :
    readNumber (encodeInt value ++ rest) = .ok (.int value, rest) := by
  obtain ⟨hlow, hhigh⟩ := hvalue
  have hmin : Int64.minValue.toInt = -9223372036854775808 := rfl
  have hsize : UInt64.size = 18446744073709551616 := rfl
  cases value with
  | ofNat n =>
    have hn : n ≤ Decimal.maxSignificand := by
      have : Int.ofNat n = (n : Int) := rfl
      rw [Decimal.maxSignificand]
      omega
    obtain ⟨d, ds, hds⟩ := List.exists_cons_of_ne_nil (digits_ne_nil n)
    have hd : (d == 0x2D) = false := by
      have := isDigit_iff.mp (isDigit_of_mem_digits (n := n) (by rw [hds]; exact List.mem_cons_self))
      rw [beq_eq_false_iff_ne, ne_eq, ← UInt8.toNat_inj]
      exact fun heq => absurd (heq ▸ this.1) (by decide)
    have hread := readUnsigned_digits hn false h
    change readNumber (digits n ++ rest) = _
    rw [hds, List.cons_append] at hread ⊢
    simp only [readNumber, hd, Bool.false_eq_true, if_false, hread, finishInteger, Bool.not_false,
      if_true]
    rfl
  | negSucc n =>
    have hn : n + 1 ≤ 9223372036854775808 := by omega
    have hread := readUnsigned_digits (n := n + 1) (by rw [Decimal.maxSignificand]; omega) true h
    have hbound : ¬ (n + 1 = 0 ∨ Int64.minValue.toInt.natAbs < n + 1) := by
      rw [hmin]
      omega
    change readNumber (0x2D :: (digits (n + 1) ++ rest)) = _
    simp only [readNumber, beq_self_eq_true, if_true, hread, finishInteger, Bool.not_true,
      Bool.false_eq_true, if_false, hbound]
    rfl

/-! ## Characters of strings -/

/-- A byte that stands for itself between the quotes of a string. -/
def isPlain (b : UInt8) : Prop :=
  b ≠ 0x22 ∧ b ≠ 0x5C ∧ ¬ b < 0x20

theorem isPlain_iff {b : UInt8} :
    isPlain b ↔ b.toNat ≠ 0x22 ∧ b.toNat ≠ 0x5C ∧ 0x20 ≤ b.toNat := by
  simp [isPlain, ← UInt8.toNat_inj, UInt8.lt_iff_toNat_lt]

/-- What has been read of a string, put in front of what is read behind it. -/
def prepend (content : Bytes) : Except Fault (Bytes × Bytes) → Except Fault (Bytes × Bytes) :=
  Except.map fun (more, rest) => (content ++ more, rest)

/-- These bytes of a string are read as that content, and reading goes on behind them with fewer
steps. -/
def Recoverable (bytes content : Bytes) : Prop :=
  ∀ (steps : Nat) (rest : Bytes), (bytes ++ rest).length < steps →
    ∃ left, rest.length < left ∧
      readContent steps (bytes ++ rest) = prepend content (readContent left rest)

theorem Recoverable.append {a b c d : Bytes} (hab : Recoverable a b) (hcd : Recoverable c d) :
    Recoverable (a ++ c) (b ++ d) := by
  intro steps rest hsteps
  rw [List.append_assoc] at hsteps ⊢
  obtain ⟨middle, hmiddle, hread⟩ := hab steps (c ++ rest) hsteps
  obtain ⟨left, hleft, hread'⟩ := hcd middle rest hmiddle
  refine ⟨left, hleft, ?_⟩
  rw [hread, hread']
  cases readContent left rest with
  | error fault => rfl
  | ok found => simp only [prepend, Except.map, List.append_assoc]

theorem Recoverable.nil : Recoverable [] [] := by
  intro steps rest hsteps
  refine ⟨steps, hsteps, ?_⟩
  rw [List.nil_append]
  cases readContent steps rest <;> rfl

theorem recoverable_plain {b : UInt8} (h : isPlain b) : Recoverable [b] [b] := by
  intro steps rest hsteps
  obtain ⟨hquote, hescape, hcontrol⟩ := h
  cases steps with
  | zero => exact absurd hsteps (Nat.not_lt_zero _)
  | succ steps =>
    refine ⟨steps, Nat.lt_of_succ_lt_succ hsteps, ?_⟩
    simp only [List.singleton_append, readContent, beq_eq_false_iff_ne.mpr hquote,
      beq_eq_false_iff_ne.mpr hescape, Bool.false_eq_true, if_false, hcontrol]
    cases readContent steps rest <;> rfl

theorem recoverable_plains {bytes : Bytes} (h : ∀ b ∈ bytes, isPlain b) :
    Recoverable bytes bytes := by
  induction bytes with
  | nil => exact .nil
  | cons b more ih =>
    obtain ⟨hb, hmore⟩ := List.forall_mem_cons.mp h
    exact (recoverable_plain hb).append (ih hmore)

theorem recoverable_short {e : UInt8} {c : Char} (h : shortEscape? e = some c) :
    Recoverable [0x5C, e] (String.utf8EncodeChar c) := by
  intro steps rest hsteps
  cases steps with
  | zero => exact absurd hsteps (Nat.not_lt_zero _)
  | succ steps =>
    simp only [List.cons_append, List.nil_append, List.length_cons] at hsteps
    refine ⟨steps, by omega, ?_⟩
    simp only [List.cons_append, List.nil_append, readContent, h, beq_self_eq_true, if_true,
      show ((0x5C : UInt8) == 0x22) = false from rfl, Bool.false_eq_true, if_false]
    cases readContent steps rest <;> rfl

theorem hexValue?_hexDigit {n : Nat} (h : n < 16) : hexValue? (hexDigit n) = some n := by
  have hall : ∀ k : Fin 16, hexValue? (hexDigit k) = some k.val := by decide
  exact hall ⟨n, h⟩

/-- A control character without a short form is read from its code. -/
theorem recoverable_code {c : Char} (h : c.toNat < 0x20) :
    Recoverable (asciiText "\\u00" ++ [hexDigit (c.toNat / 16), hexDigit (c.toNat % 16)])
      (String.utf8EncodeChar c) := by
  have hbytes : asciiText "\\u00" = [0x5C, 0x75, 0x30, 0x30] := by decide
  intro steps rest hsteps
  cases steps with
  | zero => exact absurd hsteps (Nat.not_lt_zero _)
  | succ steps =>
    have hcode : readEscapedCode
        (0x30 :: 0x30 :: hexDigit (c.toNat / 16) :: hexDigit (c.toNat % 16) :: rest) =
          .ok (c, rest) := by
      have hnumber : ((0 * 16 + 0) * 16 + c.toNat / 16) * 16 + c.toNat % 16 = c.toNat := by omega
      simp only [readEscapedCode, readHex, show hexValue? 0x30 = some 0 from rfl,
        hexValue?_hexDigit (show c.toNat / 16 < 16 by omega),
        hexValue?_hexDigit (Nat.mod_lt c.toNat (by decide : 0 < 16)), hnumber, bind, Except.bind]
      rw [if_neg (by omega), if_pos (by omega), Char.ofNat_toNat]
    simp only [hbytes, List.cons_append, List.nil_append, List.length_cons] at hsteps ⊢
    refine ⟨steps, by omega, ?_⟩
    simp only [readContent, beq_self_eq_true, if_true, show ((0x5C : UInt8) == 0x22) = false from rfl,
      Bool.false_eq_true, if_false, show shortEscape? 0x75 = none from rfl, hcode, bind, Except.bind]
    cases readContent steps rest <;> rfl

/-- The bytes of a character are plain unless it is the quote, the backslash or a control
character: those of one beyond ASCII are all above it. -/
theorem isPlain_of_mem_utf8 {c : Char} (hquote : c.toNat ≠ 0x22) (hescape : c.toNat ≠ 0x5C)
    (hcontrol : 0x20 ≤ c.toNat) {b : UInt8} (h : b ∈ String.utf8EncodeChar c) : isPlain b := by
  have hhigh : ∀ n, 0x80 ≤ n → n < 0x100 → isPlain (UInt8.ofNat n) := by
    intro n hlow hn
    have := UInt8.toNat_ofNat_of_lt' (show n < UInt8.size from hn)
    exact isPlain_iff.mpr (by omega)
  have hvalid : c.val.toNat < 55296 ∨ 57343 < c.val.toNat ∧ c.val.toNat < 1114112 := c.valid
  change c.val.toNat ≠ 0x22 at hquote
  change c.val.toNat ≠ 0x5C at hescape
  change 0x20 ≤ c.val.toNat at hcontrol
  revert h
  unfold String.utf8EncodeChar
  generalize c.val.toNat = v at *
  simp only
  intro h
  split at h
  · obtain rfl := List.mem_singleton.mp h
    have := UInt8.toNat_ofNat_of_lt' (show v < UInt8.size by rw [UInt8.size]; omega)
    exact isPlain_iff.mpr (by omega)
  split at h
  · simp only [List.mem_cons, List.not_mem_nil, or_false] at h
    rcases h with rfl | rfl <;> exact hhigh _ (by omega) (by omega)
  split at h
  · simp only [List.mem_cons, List.not_mem_nil, or_false] at h
    rcases h with rfl | rfl | rfl <;> exact hhigh _ (by omega) (by omega)
  · simp only [List.mem_cons, List.not_mem_nil, or_false] at h
    rcases h with rfl | rfl | rfl | rfl <;> exact hhigh _ (by omega) (by omega)

/-- Each character is read from the bytes that are written for it. -/
theorem recoverable_encodeChar (c : Char) :
    Recoverable (encodeChar c) (String.utf8EncodeChar c) := by
  unfold encodeChar
  split
  case h_8 c hquote hescape _ _ _ _ _ =>
    split
    · exact recoverable_code ‹_›
    · refine recoverable_plains fun b hb => isPlain_of_mem_utf8 ?_ ?_ (by omega) hb
      · exact fun heq => hquote (Char.toNat_inj.mp heq)
      · exact fun heq => hescape (Char.toNat_inj.mp heq)
  all_goals exact recoverable_short rfl

theorem recoverable_chars (chars : List Char) :
    Recoverable (chars.flatMap encodeChar) (chars.flatMap String.utf8EncodeChar) := by
  induction chars with
  | nil => exact .nil
  | cons c rest ih => exact (recoverable_encodeChar c).append ih

/-! ## Strings -/

/-- A string is read from between its quotes, whatever follows them. -/
theorem readText_chars (text : String) (rest : Bytes) :
    readText (text.toList.flatMap encodeChar ++ 0x22 :: rest) = .ok (text, rest) := by
  obtain ⟨left, hleft, hread⟩ := recoverable_chars text.toList
    ((text.toList.flatMap encodeChar ++ 0x22 :: rest).length + 1) (0x22 :: rest) (by omega)
  obtain ⟨left, rfl⟩ := Nat.exists_eq_add_of_lt (Nat.zero_lt_of_lt hleft)
  simp only [readText, hread, prepend, Nat.zero_add, readContent, beq_self_eq_true, if_true, Except.map,
    List.append_nil, bind, Except.bind, ← Bytes.ofText_eq, Bytes.text?_ofText]

theorem encodeText_append (text : String) (rest : Bytes) :
    encodeText text ++ rest = 0x22 :: (text.toList.flatMap encodeChar ++ 0x22 :: rest) := by
  simp only [encodeText, List.cons_append, List.append_assoc, List.nil_append]
  rfl

end Json

end Courier
