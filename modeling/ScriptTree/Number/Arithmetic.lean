import ScriptTree.Number.Binary

/-!
# Arithmetic on doubles

Remainder, power and truncation as scripts see them, and the reduction of a double to a 32-bit word.
Sum, difference, product and quotient are those of `Float`.
-/

namespace ScriptTree

/-- Not a number. -/
def notANumber : Float := 0 / 0

/-- The double with its fraction dropped.  What is not finite stays. -/
def truncate (x : Float) : Float :=
  match Binary.ofFloat? x with
  | some b => b.whole.toFloat
  | none => x

/-- The remainder of a division whose quotient is truncated.  It has the sign of `x`. -/
def remainder (x y : Float) : Float :=
  match Binary.ofFloat? x, Binary.ofFloat? y with
  | some a, some b => if b.significand = 0 then notANumber else (a.remainder b).toFloat
  | some _, none => if y.isNaN then notANumber else x
  | none, _ => notANumber

/-- The power.  With the exponent NaN, or an infinite exponent on one or minus one, it is
not a number. -/
def power (base exponent : Float) : Float :=
  if exponent.isNaN || (base.abs == 1 && exponent.isInf) then notANumber
  else base.pow exponent

/-- The remainder that is not negative.  Where `remainder` is, the size of `y` is added to it, and
that sum is rounded as every sum of doubles. -/
def euclideanRemainder (x y : Float) : Float :=
  let rest := remainder x y
  if rest < 0 then rest + y.abs else rest

/-- The double truncated toward zero, reduced modulo `2 ^ 32` and converted to a word, one step on
doubles after the other.  NaN and the infinities give 0. -/
def toWord (x : Float) : UInt32 :=
  if x.isFinite then (euclideanRemainder (truncate x) 4294967296).toUInt32 else 0

/-- The word read as a signed number. -/
def signedWord (w : UInt32) : Float := Float.ofInt w.toInt32.toInt

/-- The word read as an unsigned number. -/
def unsignedWord (w : UInt32) : Float := Float.ofNat w.toNat

/-- The number of places a shift by `w` moves. -/
def shiftAmount (w : UInt32) : UInt32 := w % 32

end ScriptTree
