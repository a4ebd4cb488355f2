import ScriptTree.Number.Binary

/-!
# Decimal numbers and doubles

`Decimal.toFloat` rounds a decimal number to the nearest double.  `Binary.shortest` goes the other
way: it gives the decimal number with the fewest digits among those that round to a double.

The reals that round to `m · 2 ^ q` form an interval.  Its ends are half a unit in the last place
away, a quarter below when `m` is the least normal significand, and they belong to it exactly when
`m` is even.  For one digit, two digits and so on, only the two multiples of the decimal unit next
to the value can lie in the interval nearest to it, and seventeen digits always suffice.
-/

namespace ScriptTree

/-- The number `digits · 10 ^ exponent`. -/
structure Decimal where
  digits : Nat
  exponent : Int
deriving DecidableEq, Repr

/-- How many decimal digits a natural number is written with. -/
def digitCount (n : Nat) : Nat := (Nat.toDigits 10 n).length

namespace Decimal

/-- A `k` with `2 ^ k ≤ d`, for digits other than zero: ten lies between `2 ^ 3` and `2 ^ 4`. -/
def leastBits (d : Decimal) : Int :=
  d.digits.log2 + (if 0 ≤ d.exponent then 3 else 4) * d.exponent

/-- A `k` with `d < 2 ^ k`. -/
def mostBits (d : Decimal) : Int :=
  d.digits.log2 + 1 + (if 0 ≤ d.exponent then 4 else 3) * d.exponent

/-- The double nearest to the number, infinity when it is too large.  Numbers of `2 ^ 1024` and more
overflow and those below `2 ^ (-1075)` vanish.  Their powers of ten are not computed when the bits
tell. -/
def toFloat (d : Decimal) : Float :=
  if d.digits = 0 then 0
  else if 1024 ≤ d.leastBits then 1 / 0
  else if d.mostBits ≤ -1075 then 0
  else Float.ofScientific d.digits (d.exponent < 0) d.exponent.natAbs

/-- Moves trailing zeros into the exponent, at most `fuel` of them. -/
def stripZeros : Nat → Decimal → Decimal
  | 0, d => d
  | fuel + 1, d =>
      if d.digits % 10 = 0 then stripZeros fuel ⟨d.digits / 10, d.exponent + 1⟩ else d

end Decimal

/-- The reals that round to a double, as fractions over one denominator. -/
structure RoundingRange where
  low : Nat
  middle : Nat
  high : Nat
  denominator : Nat
  /-- Whether the two ends round to the double too. -/
  closed : Bool
deriving DecidableEq, Repr

namespace Binary

/-- The reals that round to the size of `b`, in quarters of its last place. -/
def roundingRange (b : Binary) : RoundingRange :=
  let m := b.significand
  let below := if m = Nat.pow 2 52 ∧ -1074 < b.exponent then 1 else 2
  let exponent := b.exponent - 2
  let scale := Nat.pow 2 exponent.toNat
  { low := (4 * m - below) * scale
    middle := 4 * m * scale
    high := (4 * m + 2) * scale
    denominator := Nat.pow 2 (-exponent).toNat
    closed := m % 2 = 0 }

end Binary

namespace RoundingRange

/-- The `k` with `10 ^ (k - 1) ≤ middle < 10 ^ k`. -/
def point (r : RoundingRange) : Int :=
  if r.denominator ≤ r.middle then digitCount (r.middle / r.denominator)
  else 1 - (digitCount ((r.denominator - 1) / r.middle) : Int)

/-- Whether the fraction `numerator / denominator` of the scaled range lies in it. -/
def contains (r : RoundingRange) (factor numerator : Nat) : Bool :=
  if r.closed then r.low * factor ≤ numerator && numerator ≤ r.high * factor
  else r.low * factor < numerator && numerator < r.high * factor

/-- The number with `count` digits that lies in the range, nearest to its middle.  A tie goes up. -/
def withDigits (r : RoundingRange) (count : Nat) : Option Decimal :=
  let exponent := r.point - count
  let factor := Nat.pow 10 (-exponent).toNat
  let unit := Nat.pow 10 exponent.toNat * r.denominator
  let below := r.middle * factor / unit
  let rest := r.middle * factor % unit
  match r.contains factor (below * unit), r.contains factor ((below + 1) * unit) with
  | true, true => some ⟨if 2 * rest < unit then below else below + 1, exponent⟩
  | true, false => some ⟨below, exponent⟩
  | false, true => some ⟨below + 1, exponent⟩
  | false, false => none

/-- The number with the fewest digits that lies in the range. -/
def fewestDigits (r : RoundingRange) : Decimal :=
  match (List.range' 1 17).findSome? r.withDigits with
  | some d => d.stripZeros 17
  | none => ⟨0, 0⟩

end RoundingRange

/-- The decimal number with the fewest digits that rounds to the size of `b`. -/
def Binary.shortest (b : Binary) : Decimal := b.roundingRange.fewestDigits

end ScriptTree
