/-!
# Finite doubles as exact numbers

A finite double is a sign, a natural significand and a power of two.  Operations that are exact on
doubles (truncation, remainders, array lengths, decimal text) start from this view, where they are
arithmetic on natural numbers.
-/

namespace ScriptTree

/-- The number `± significand · 2 ^ exponent`. -/
structure Binary where
  negative : Bool
  significand : Nat
  exponent : Int
deriving DecidableEq, Repr

namespace Binary

/-- The exact value of a double.  NaN and the infinities have none. -/
def ofFloat? (x : Float) : Option Binary :=
  let bits := x.toBits.toNat
  let negative : Bool := Nat.pow 2 63 ≤ bits
  let exponent : Nat := bits / Nat.pow 2 52 % Nat.pow 2 11
  let fraction : Nat := bits % Nat.pow 2 52
  if exponent = 2047 then none
  else if exponent = 0 then some ⟨negative, fraction, -1074⟩
  else some ⟨negative, Nat.pow 2 52 + fraction, (exponent : Int) - 1075⟩

/-- The double nearest to the number.  It is exact on every number that `ofFloat?` returns. -/
def toFloat (b : Binary) : Float :=
  let size :=
    if 0 ≤ b.exponent then
      Float.ofScientific (b.significand * Nat.pow 2 b.exponent.toNat) false 0
    else
      let places := (-b.exponent).toNat
      Float.ofScientific (b.significand * Nat.pow 5 places) true places
  if b.negative then -size else size

/-- The size of the number with its fraction dropped. -/
def truncatedSize (b : Binary) : Nat :=
  if 0 ≤ b.exponent then b.significand * Nat.pow 2 b.exponent.toNat
  else b.significand / Nat.pow 2 (-b.exponent).toNat

/-- The number with its fraction dropped.  A zero that is left has the sign of the number. -/
def whole (b : Binary) : Binary := ⟨b.negative, b.truncatedSize, 0⟩

/-- What is left of `a` after taking away `b` as often as it goes, with the sign of `a`.  Both are
written over the smaller of their two powers of two, where the remainder is one of naturals. -/
def remainder (a b : Binary) : Binary :=
  let exponent := min a.exponent b.exponent
  let left := a.significand * Nat.pow 2 (a.exponent - exponent).toNat
  let right := b.significand * Nat.pow 2 (b.exponent - exponent).toNat
  ⟨a.negative, left % right, exponent⟩

end Binary

end ScriptTree
