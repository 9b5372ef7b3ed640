/-!
# Shortest decimal text of a float

A finite float stands for `m · 2 ^ q`, and every real number between the midpoints to its two
neighbours rounds to it. Of the decimal numbers in that interval those with the fewest digits are
taken, and of these the one nearest to the float. How its digits are laid out is a `Layout`.
-/

namespace Courier.Decimal

/-- A finite positive float as `mantissa · 2 ^ exponent`. -/
structure Binary where
  mantissa : Nat
  exponent : Int
  /-- Is the float below only half as far away as the one above? -/
  lowerIsCloser : Bool

/-- The number that the bits of a finite float stand for, its sign left out. -/
def Binary.ofBits (bits : Nat) : Binary :=
  let fraction : Nat := bits % Nat.pow 2 52
  let biased : Nat := bits / Nat.pow 2 52 % Nat.pow 2 11
  if biased = 0 then ⟨fraction, -1074, false⟩
  else ⟨Nat.pow 2 52 + fraction, (biased : Int) - 1075, fraction = 0 ∧ 1 < biased⟩

/-- A decimal number `digits · 10 ^ exponent`. -/
structure Digits where
  digits : Nat
  exponent : Int
  deriving DecidableEq, Repr

/-- The reals that round to a float, in quarters of its last binary place, as fractions over one
denominator. -/
structure Interval where
  low : Nat
  value : Nat
  high : Nat
  denominator : Nat
  closed : Bool

/-- The reals that round to the number. -/
def Binary.interval (b : Binary) : Interval :=
  let q := b.exponent - 2
  let scale := Nat.pow 2 q.toNat
  { low := (4 * b.mantissa - if b.lowerIsCloser then 1 else 2) * scale
    value := 4 * b.mantissa * scale
    high := (4 * b.mantissa + 2) * scale
    denominator := Nat.pow 2 (-q).toNat
    closed := b.mantissa % 2 = 0 }

/-- Does `digits · 10 ^ exponent` lie in the interval? -/
def Interval.holds (i : Interval) (d : Digits) : Bool :=
  let value := d.digits * Nat.pow 10 d.exponent.toNat * i.denominator
  let scale := Nat.pow 10 (-d.exponent).toNat
  if i.closed then i.low * scale ≤ value && value ≤ i.high * scale
  else i.low * scale < value && value < i.high * scale

/-- The largest multiple of `10 ^ exponent` that is not above the interval's float, and by how
much it falls short, as a numerator over a denominator. -/
def Interval.floor (i : Interval) (exponent : Int) : Nat × Nat × Nat :=
  let numerator := i.value * Nat.pow 10 (-exponent).toNat
  let denominator := i.denominator * Nat.pow 10 exponent.toNat
  (numerator / denominator, numerator % denominator, denominator)

/-- The shortest number in the interval on the grid of `10 ^ exponent`, if there is one: the
nearer of the float's two neighbours, the even one if both are as near. -/
def Interval.onGrid (i : Interval) (exponent : Int) : Option Digits :=
  let (below, rest, denominator) := i.floor exponent
  let lower : Digits := ⟨below, exponent⟩
  let upper : Digits := ⟨below + 1, exponent⟩
  match i.holds lower, i.holds upper with
  | false, false => none
  | true, false => some lower
  | false, true => some upper
  | true, true =>
    some <| if 2 * rest < denominator then lower
      else if denominator < 2 * rest then upper
      else if below % 2 = 0 then lower else upper

/-- The power of ten of the first digit of `numerator / denominator`, a positive number. -/
def leadingExponent (numerator denominator : Nat) : Int :=
  if denominator ≤ numerator then
    ((Nat.toDigits 10 (numerator / denominator)).length : Int) - 1
  else
    -((Nat.toDigits 10 (denominator / numerator)).length : Int)

/-- Try one digit, then two, and so on; seventeen always suffice. -/
def Interval.shortestFrom (i : Interval) (leading : Int) : Nat → Nat → Digits
  | _, 0 => let (below, _, _) := i.floor (leading - 17); ⟨below, leading - 17⟩
  | count, tries + 1 =>
    match i.onGrid (leading + 1 - count) with
    | some d => d
    | none => i.shortestFrom leading (count + 1) tries

/-- Drop the zeros at the end of the digits. -/
def Digits.trim (d : Digits) : Nat → Digits
  | 0 => d
  | bound + 1 =>
    if d.digits % 10 = 0 ∧ d.digits ≠ 0 then
      Digits.trim ⟨d.digits / 10, d.exponent + 1⟩ bound
    else d

/-- The shortest digits that read back as the positive number. -/
def Binary.shortest (b : Binary) : Digits :=
  let i := b.interval
  (i.shortestFrom (leadingExponent i.value i.denominator) 1 17).trim 400

/-- How digits are laid out: positionally if the first digit's power of ten lies between two
bounds, with an exponent otherwise. -/
structure Layout where
  leastPositional : Int
  mostPositional : Int
  exponentMark : String
  exponentPlus : String
  exponentDigits : Nat

/-- Fill up with zeros on the left. -/
def padLeft (width : Nat) (digits : String) : String :=
  "".pushn '0' (width - digits.length) ++ digits

/-- Write the digits, at least one behind the point where they are written positionally. -/
def Layout.write (layout : Layout) (d : Digits) : String :=
  let digits := toString d.digits
  let leading := d.exponent + digits.length - 1
  if layout.leastPositional ≤ leading ∧ leading ≤ layout.mostPositional then
    if 0 ≤ d.exponent then digits.pushn '0' d.exponent.toNat ++ ".0"
    else if 0 ≤ leading then
      let whole := leading.toNat + 1
      String.ofList (digits.toList.take whole) ++ "." ++ String.ofList (digits.toList.drop whole)
    else "0.".pushn '0' ((-leading).toNat - 1) ++ digits
  else
    let fraction := String.ofList (digits.toList.drop 1)
    String.ofList (digits.toList.take 1) ++ (if fraction.isEmpty then "" else "." ++ fraction) ++
      layout.exponentMark ++ (if leading < 0 then "-" else layout.exponentPlus) ++
      padLeft layout.exponentDigits (toString leading.natAbs)

/-- The shortest text of a finite float. -/
def Layout.writeFloat (layout : Layout) (f : Float) : String :=
  let bits := f.toBits.toNat
  let sign := if Nat.pow 2 63 ≤ bits then "-" else ""
  let b := Binary.ofBits bits
  sign ++ if b.mantissa = 0 then "0.0" else layout.write b.shortest

end Courier.Decimal
