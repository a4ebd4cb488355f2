import ScriptTree.Number.Decimal

/-!
# The text of a number

A number is written with the fewest digits that read back as it.  `Layout` says where the point
goes: scripts see an exponent when the point would stand far outside the digits, and a diagnostic
text never has one.
-/

namespace ScriptTree

/-- How digits, point and exponent are put together. -/
structure Layout where
  /-- The number is written with an exponent unless `least < point ≤ most`. -/
  positional : Option (Int × Int)
  /-- The text of infinity. -/
  infinity : String
  /-- Whether zero keeps its sign. -/
  signedZero : Bool

namespace Layout

/-- What scripts see. -/
def script : Layout := ⟨some (-6, 21), "Infinity", false⟩

/-- What diagnostics show. -/
def plain : Layout := ⟨none, "inf", true⟩

/-- Digits without an exponent.  `point` counts the digits before the point, which is negative when
zeros stand between the point and the digits. -/
def positionalText (digits : List Char) (point : Int) : List Char :=
  if (digits.length : Int) ≤ point then
    digits ++ List.replicate (point - digits.length).toNat '0'
  else if 0 < point then
    digits.take point.toNat ++ '.' :: digits.drop point.toNat
  else
    '0' :: '.' :: (List.replicate (-point).toNat '0' ++ digits)

/-- One digit before the point, the others behind it, and a signed exponent. -/
def exponentText (digits : List Char) (point : Int) : List Char :=
  let exponent := point - 1
  let fraction := if digits.drop 1 = [] then [] else '.' :: digits.drop 1
  let sign := if 0 ≤ exponent then '+' else '-'
  digits.take 1 ++ fraction ++ 'e' :: sign :: Nat.toDigits 10 exponent.natAbs

/-- The text of a number with the given significant digits. -/
def digitsText (layout : Layout) (digits : List Char) (point : Int) : List Char :=
  match layout.positional with
  | none => positionalText digits point
  | some (least, most) =>
      if least < point ∧ point ≤ most then positionalText digits point
      else exponentText digits point

/-- The text of a double. -/
def text (layout : Layout) (x : Float) : String :=
  match Binary.ofFloat? x with
  | none => if x.isNaN then "NaN" else if x < 0 then "-" ++ layout.infinity else layout.infinity
  | some b =>
      if b.significand = 0 then
        if b.negative && layout.signedZero then "-0" else "0"
      else
        let d := b.shortest
        let digits := Nat.toDigits 10 d.digits
        let size := String.ofList (layout.digitsText digits (digits.length + d.exponent))
        if b.negative then "-" ++ size else size

end Layout

/-- The text of a number as scripts see it. -/
def numberText (x : Float) : String := Layout.script.text x

end ScriptTree
