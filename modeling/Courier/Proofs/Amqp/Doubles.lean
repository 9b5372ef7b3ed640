import Courier.Amqp.Value
import Mathlib

/-!
# Whole numbers as doubles

A whole number beyond the signed numbers of 64 bits is written as a double. `holds_ofInt` says which
double that is: a finite one, and the number that it holds (`Holds`) is off by at most half of the
distance between two doubles there.

A number is rounded by shifting the last bits out of its mantissa, of which only the first one and
whether any other was set are kept (`shiftRight_succ`); these decide how the mantissa is rounded
(`round_near`).
-/

namespace Courier.Amqp.Double

open Float.Model (Format)
open Float.Model.UnpackedFloat

/-- The double is a positive number, the given one. -/
def Holds (x : Float) (n : Nat) : Prop :=
  ∃ mantissa exponent : Nat, ∃ h : 0 < mantissa,
    x.toModel.unpack = .finite .positive mantissa exponent h ∧ n = mantissa * 2 ^ exponent

theorem Holds.isFinite {x : Float} {n : Nat} (h : Holds x n) : x.isFinite = true := by
  obtain ⟨_, _, _, hx, _⟩ := h
  rw [Float.isFinite, Float.Model.isFinite, hx]
  rfl

/-! ## Rounding -/

/-- What shifting leaves of a mantissa. -/
theorem shiftRight_succ (m k : Nat) :
    (⟨m, false, false⟩ : ExtendedMantissa) >>> (k + 1) =
      ⟨m / 2 ^ (k + 1), m / 2 ^ k % 2 != 0, m % 2 ^ k != 0⟩ := by
  induction k with
  | zero =>
    change ExtendedMantissa.shiftRightOne ⟨m, false, false⟩ = _
    simp [ExtendedMantissa.shiftRightOne, Nat.mod_one]
  | succ k ih =>
    change ExtendedMantissa.shiftRightOne ((⟨m, false, false⟩ : ExtendedMantissa) >>> (k + 1)) = _
    have hmod : m % 2 ^ (k + 1) = 0 ↔ m / 2 ^ k % 2 = 0 ∧ m % 2 ^ k = 0 := by
      have := Nat.two_pow_pos k
      rw [Nat.pow_succ, Nat.mod_mul, Nat.add_eq_zero_iff, Nat.mul_eq_zero]
      omega
    rw [ih, ExtendedMantissa.shiftRightOne, Nat.div_div_eq_div_mul, ← Nat.pow_succ]
    congr 1
    rw [Bool.eq_iff_iff]
    simp only [Bool.or_eq_true, bne_iff_ne, ne_eq, hmod]
    omega

/-- Rounding adds one at most, and only if the first of the bits shifted out was set. -/
theorem roundedMantissa_cases (m : Nat) (roundBit stickyBit : Bool) :
    (ExtendedMantissa.mk m roundBit stickyBit).roundedMantissa = m ∧
        (roundBit = true → stickyBit = false) ∨
      (ExtendedMantissa.mk m roundBit stickyBit).roundedMantissa = m + 1 ∧ roundBit = true := by
  cases roundBit <;> cases stickyBit <;>
    simp [ExtendedMantissa.roundedMantissa, ExtendedMantissa.accuracy,
      Accuracy.roundToNearestEven]
  omega

/-- A rounded mantissa is off by at most a half. -/
theorem round_near {m k rounded : Nat}
    (h : ((⟨m, false, false⟩ : ExtendedMantissa) >>> (k + 1)).roundedMantissa = rounded) :
    rounded * 2 ^ (k + 1) ≤ m + 2 ^ k ∧ m ≤ rounded * 2 ^ (k + 1) + 2 ^ k := by
  have hm : m = (m / 2 ^ (k + 1) * 2 + m / 2 ^ k % 2) * 2 ^ k + m % 2 ^ k := by
    rw [Nat.pow_succ, ← Nat.div_div_eq_div_mul, Nat.div_add_mod', Nat.div_add_mod']
  have hrest : m % 2 ^ k < 2 ^ k := Nat.mod_lt _ (Nat.two_pow_pos k)
  have hbit : m / 2 ^ k % 2 < 2 := Nat.mod_lt _ (by decide)
  rw [shiftRight_succ] at h
  generalize m / 2 ^ (k + 1) = q at hm h
  generalize m / 2 ^ k % 2 = bit at hm hbit h
  generalize m % 2 ^ k = rest at hm hrest h
  have hround := roundedMantissa_cases q (bit != 0) (rest != 0)
  simp only [h, bne_iff_ne, bne_eq_false_iff_eq] at hround
  rw [Nat.add_mul, Nat.mul_assoc] at hm
  rw [Nat.pow_succ, Nat.mul_comm (2 ^ k) 2]
  obtain ⟨rfl, hzero⟩ | ⟨rfl, hone⟩ := hround
  · obtain rfl | rfl : bit = 0 ∨ bit = 1 := by omega
    · omega
    · have := hzero (by decide)
      omega
  · obtain rfl : bit = 1 := by omega
    rw [Nat.add_mul]
    omega

theorem toNat_one_append {w : Nat} (v : BitVec w) : (1#1 ++ v).toNat = 2 ^ w + v.toNat := by
  rw [BitVec.toNat_append, ← Nat.shiftLeft_add_eq_or_of_lt v.isLt]
  simp [Nat.shiftLeft_eq]

theorem unpackSign_positive (e : BitVec 11) (m : BitVec 52) :
    unpackSign (packComponents Format.binary64 .positive e m) = 0#1 := by
  change (0#1 ++ e ++ m).extractLsb' 63 1 = 0#1
  rw [BitVec.extractLsb'_append_eq_of_le (by decide),
    BitVec.extractLsb'_append_eq_of_le (by decide)]
  rfl

/-- Packing and unpacking changes no number whose mantissa has all its bits. -/
theorem unpack_pack {m e : Nat} (hpos : 0 < m) (h : 2 ^ 52 ≤ m) (h' : m < 2 ^ 53) (he : e ≤ 12) :
    (Float.Model.pack (.finite .positive m e hpos)).unpack = .finite .positive m e hpos := by
  have hlog : m.log2 + 1 = Format.binary64.mantissaBits := by
    have hlow := (Nat.le_log2 (Nat.ne_of_gt hpos)).mpr h
    have hhigh := (Nat.log2_lt (Nat.ne_of_gt hpos)).mpr h'
    have hbits : Format.binary64.mantissaBits = 53 := rfl
    omega
  have hbias : Format.binary64.exponentBias = 1023 := rfl
  have hexp : ((e : Int) + Format.binary64.exponentBias +
      Format.binary64.mantissaBitsWithoutImplicit).toNat = e + 1075 := by
    rw [hbias]
    dsimp only [Format.binary64]
    omega
  have hstored : (BitVec.ofNat 11 (e + 1075)).toNat = e + 1075 :=
    Nat.mod_eq_of_lt (by omega)
  have hmantissa : (1#1 ++ BitVec.ofNat 52 m).toNat = m := by
    rw [toNat_one_append, BitVec.toNat_ofNat]
    omega
  have hones : BitVec.ofNat 11 (e + 1075) ≠ -1#11 := fun hc => by
    have := congrArg BitVec.toNat hc
    rw [hstored] at this
    change e + 1075 = 2047 at this
    omega
  have hzero : BitVec.ofNat 11 (e + 1075) ≠ 0#11 := fun hc => by
    have := congrArg BitVec.toNat hc
    rw [hstored] at this
    change e + 1075 = 0 at this
    omega
  unfold Float.Model.unpack Float.Model.pack
  simp only [pack, hexp]
  rw [if_neg (by omega), if_pos hlog]
  simp only [unpack, unpackExponent_packComponents, unpackMantissa_packComponents]
  rw [if_neg hones, if_neg hzero, unpackSign_positive]
  rw [finite.injEq]
  refine ⟨rfl, hmantissa, ?_⟩
  rw [hstored, hbias]
  change ((e + 1075 : Nat) : Int) - (1023 + 52) = e
  omega

/-- A mantissa is shifted until it has 53 bits. -/
theorem shiftToTarget {m : Nat} (shift : Nat) {e : Int} (h : 2 ^ (shift + 52) ≤ m)
    (h' : m < 2 ^ (shift + 53)) (he : -1074 ≤ shift + e) :
    shiftToTargetExponent Format.binary64 m e .exact =
      ((⟨m, false, false⟩ : ExtendedMantissa) >>> shift, e + shift) := by
  have hpos : m ≠ 0 := by
    have := Nat.two_pow_pos (shift + 52)
    omega
  have hlow := (Nat.le_log2 hpos).mpr h
  have hhigh := (Nat.log2_lt hpos).mpr h'
  have htarget : Format.binary64.targetExponent (Float.Model.totalExponent m e) = e + shift := by
    change max ((m.log2 : Int) + 1 + e - 53) (-1074) = _
    omega
  have hshift : (e + shift - e).toNat = shift := by omega
  simp only [shiftToTargetExponent, shiftToExponent, htarget, hshift]
  rfl

/-- Rounding ends with what the second shift leaves. -/
theorem roundWithAccuracy_eq {spec : Format} {sign : Sign} {m rounded m' : Nat} {e e' e'' : Int}
    {accuracy : Accuracy} {first second : ExtendedMantissa} (hpos : 0 < m')
    (hfirst : shiftToTargetExponent spec m e accuracy = (first, e'))
    (hr : first.roundedMantissa = rounded)
    (hsecond : shiftToTargetExponent spec rounded e' .exact = (second, e''))
    (hm : second.mantissa = m') :
    roundWithAccuracy spec sign m e accuracy = .finite sign m' e'' hpos := by
  subst hm hr
  simp only [roundWithAccuracy, hfirst, hsecond]
  exact dif_neg (Nat.ne_of_gt hpos)

/-! ## The double of a whole number -/

/-- A number is rounded to 53 bits, or to the power of two after all of these, which is written with
53 bits and the next exponent. -/
theorem round_whole {n : Nat} (h : 2 ^ 63 ≤ n) (h' : n < 2 ^ 64) :
    ∃ m e : Nat, ∃ hpos : 0 < m,
      roundWithAccuracy Format.binary64 .positive (n <<< 53) (-53) .exact =
        .finite .positive m e hpos ∧
      2 ^ 52 ≤ m ∧ m < 2 ^ 53 ∧ e ≤ 12 ∧ m * 2 ^ e ≤ n + 2 ^ 10 ∧ n ≤ m * 2 ^ e + 2 ^ 10 := by
  have hn : n <<< 53 = n * 2 ^ 53 := Nat.shiftLeft_eq n 53
  have hfirst := shiftToTarget (m := n <<< 53) (e := -53) 64 (by omega) (by omega)
    (by decide)
  generalize hr : ((⟨n <<< 53, false, false⟩ : ExtendedMantissa) >>> 64).roundedMantissa = rounded
  have hnear := round_near (k := 63) hr
  have hlow : 2 ^ 52 ≤ rounded := by omega
  have hhigh : rounded ≤ 2 ^ 53 := by omega
  obtain hlt | rfl := Nat.lt_or_eq_of_le hhigh
  · have hsecond := shiftToTarget (m := rounded) (e := 11) 0 (by omega) (by omega)
      (by decide)
    exact ⟨rounded, 11, by omega, roundWithAccuracy_eq _ hfirst hr hsecond rfl, hlow, hlt,
      by decide, by omega, by omega⟩
  · have hsecond := shiftToTarget (m := 2 ^ 53) (e := 11) 1 (by decide) (by decide)
      (by decide)
    exact ⟨2 ^ 52, 12, by decide, roundWithAccuracy_eq _ hfirst hr hsecond rfl, by decide,
      by decide, by decide, by omega, by omega⟩

theorem holds_ofNat {n : Nat} (h : 2 ^ 63 ≤ n) (h' : n < 2 ^ 64) :
    ∃ value, Holds (Float.ofNat n) value ∧ value ≤ n + 2 ^ 10 ∧ n ≤ value + 2 ^ 10 := by
  have hofNat : Float.ofNat n = ⟨Float.Model.pack
      (roundWithAccuracy Format.binary64 .positive (n <<< 53) (-53) .exact)⟩ := by
    have hbits : Format.binary64.mantissaBits = 53 := rfl
    have hsign : (Sign.positive * Sign.positive) = Sign.positive := rfl
    have hten : 10 ^ (Int.ofNat 0).toNat = 1 := rfl
    change Float.ofScientific n false 0 = _
    rw [Float.ofScientific, dif_neg (by omega)]
    simp only [Bool.false_eq_true, if_false, Float.Model.ofScientific, ofScientific]
    rw [dif_neg (by omega), if_neg (by decide), if_neg (by change ¬(0 : Int) < _; omega),
      if_pos (by decide)]
    simp only [mul, hbits, hsign, hten, Nat.mul_one, Int.add_zero]
    rfl
  obtain ⟨m, e, hpos, hround, hlow, hhigh, he, hnear⟩ := round_whole h h'
  refine ⟨m * 2 ^ e, ⟨m, e, hpos, ?_, rfl⟩, hnear⟩
  rw [hofNat, hround]
  exact unpack_pack hpos hlow hhigh he

/-- A whole number beyond the signed numbers of 64 bits is written as a double that is off by at
most half of the distance between two doubles there. -/
theorem holds_ofInt {n : Int} (h : Int64.maxValue.toInt < n) (h' : n < UInt64.size) :
    ∃ value : Nat, Holds (Float.ofInt n) value ∧ value ≤ n + 2 ^ 10 ∧ n ≤ value + 2 ^ 10 := by
  have hmax : Int64.maxValue.toInt = 2 ^ 63 - 1 := Int64.toInt_maxValue
  have hsize : ((UInt64.size : Nat) : Int) = 2 ^ 64 := rfl
  obtain ⟨k, rfl⟩ := Int.eq_ofNat_of_zero_le (a := n) (by omega)
  obtain ⟨value, hvalue, hnear⟩ := holds_ofNat (n := k) (by omega) (by omega)
  exact ⟨value, hvalue, by omega, by omega⟩

end Courier.Amqp.Double
