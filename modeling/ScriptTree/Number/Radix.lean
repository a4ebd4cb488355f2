import ScriptTree.Number.Arithmetic

/-!
# The text of a number in another radix

The digits before the point come from repeated division of the whole part, those behind it from
repeated multiplication of the fraction.  Both run in doubles, so that a division of a number above
`2 ^ 53` rounds.
-/

namespace ScriptTree

namespace Radix

/-- The character for one digit: `0` to `9`, then `a` to `z`. -/
def digitChar (digit radix : Nat) : Char :=
  if radix ≤ digit then '0'
  else if digit < 10 then Char.ofNat ('0'.toNat + digit)
  else Char.ofNat ('a'.toNat + digit - 10)

/-- The digits of a whole number, put before `digits`.  A double has at most 1024 of them. -/
def wholeDigits (radix : Nat) : Nat → Float → List Char → List Char
  | 0, _, digits => digits
  | fuel + 1, whole, digits =>
      let digit := (remainder whole (Float.ofNat radix)).toUInt32.toNat
      let rest := truncate (whole / Float.ofNat radix)
      let digits := digitChar digit radix :: digits
      if rest < 1 then digits else wholeDigits radix fuel rest digits

/-- The first `count` digits of a fraction, or all when it ends before. -/
def fractionDigits (radix : Nat) : Nat → Float → List Char
  | 0, _ => []
  | count + 1, fraction =>
      let scaled := fraction * Float.ofNat radix
      let whole := truncate scaled
      let rest := scaled - whole
      let digit := digitChar whole.toUInt32.toNat radix
      if rest == 0 then [digit] else digit :: fractionDigits radix count rest

end Radix

/-- A finite number in a radix from 2 to 36.  A fraction stops after 52 digits. -/
def radixText (x : Float) (radix : Nat) : String :=
  let size := x.abs
  let whole := truncate size
  let fraction := size - whole
  let sign := if x < 0 then ['-'] else []
  let wholeText := Radix.wholeDigits radix 1100 whole []
  let fractionText := if 0 < fraction then '.' :: Radix.fractionDigits radix 52 fraction else []
  String.ofList (sign ++ wholeText ++ fractionText)

end ScriptTree
