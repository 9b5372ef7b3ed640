/-!
# Decimal numerals as floats

A numeral with a fraction or an exponent is read as an integer significand below 2^64 and a power
of ten: digits that no longer fit only move the point. The float is the significand, rounded, times
or divided by that power, rounded again, so the last bit may differ from that of the nearest float;
a numeral whose value is too large for a float has none.
-/

namespace Courier.Decimal

/-- The largest significand kept. -/
def maxSignificand : Nat := UInt64.size - 1

/-- Digits taken into a significand, and what became of the rest of the numeral. -/
structure Taken where
  significand : Nat
  taken : Nat
  left : List Nat

/-- Append digits to a significand as long as it stays within its bound. -/
def take (significand : Nat) : List Nat → Taken
  | [] => ⟨significand, 0, []⟩
  | d :: ds =>
    if significand * 10 + d ≤ maxSignificand then
      let t := take (significand * 10 + d) ds
      { t with taken := t.taken + 1 }
    else ⟨significand, 0, d :: ds⟩

/-- A power of ten that a float can hold. -/
def pow10 (n : Nat) : Float :=
  Float.ofScientific 1 false n

/-- The largest power of ten that a float can hold. -/
def maxPow10 : Nat := 308

/-- Divide by a power of ten of any size, in steps that a float can hold. The first argument
bounds the number of steps. -/
def divPow10 : Nat → Float → Nat → Float
  | 0, f, _ => f
  | steps + 1, f, n =>
    if n ≤ maxPow10 then f / pow10 n
    else if f == 0.0 then f
    else divPow10 steps (f / pow10 maxPow10) (n - maxPow10)

/-- The float of `significand · 10 ^ exponent`, if it is not too large. -/
def toFloat? (significand : Nat) (exponent : Int) : Option Float :=
  let f := (UInt64.ofNat significand).toFloat
  if 0 ≤ exponent then
    if exponent.toNat ≤ maxPow10 then
      let g := f * pow10 exponent.toNat
      if g.isInf then none else some g
    else if f == 0.0 then some f
    else none
  else
    let n := exponent.natAbs
    some (divPow10 (n / maxPow10 + 1) f n)

end Courier.Decimal
