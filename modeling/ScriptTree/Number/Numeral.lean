import ScriptTree.Number.Arithmetic
import ScriptTree.Number.Decimal
import ScriptTree.Text

/-!
# Texts read as numbers

A text without the white space at its ends is a numeral when it is empty, `Infinity` with an
optional sign, a whole number in radix 16, 8 or 2 after `0x`, `0o` or `0b`, or a decimal number.
`parse?` accepts exactly these, `value` says what they stand for, and every other text is not a
number.

Decimal numbers are read in two steps.  A text passes when all its characters may stand in a decimal
number (`isDecimalChar`), and then the reader of floating-point numbers reads it.
-/

namespace ScriptTree

/-- What a text that can be read as a number stands for. -/
inductive Numeral where
  /-- No text at all. -/
  | empty
  | infinity (negative : Bool)
  /-- Digits in the given radix, the highest first. -/
  | radix (base : Nat) (digits : List Nat)
  | decimal (negative : Bool) (size : Decimal)
deriving DecidableEq, Repr

namespace Numeral

/-- The value of a digit in a radix of at most 36. -/
def digitValue? (base : Nat) (c : Char) : Option Nat :=
  let digit :=
    if '0' ≤ c ∧ c ≤ '9' then c.toNat - '0'.toNat
    else if 'a' ≤ c ∧ c ≤ 'z' then c.toNat - 'a'.toNat + 10
    else if 'A' ≤ c ∧ c ≤ 'Z' then c.toNat - 'A'.toNat + 10
    else 36
  if digit < base then some digit else none

/-- One or more digits of a radix. -/
def radix? (base : Nat) (digits : List Char) : Option Numeral :=
  if digits = [] then none else (digits.mapM (digitValue? base)).map (.radix base)

/-- Takes an optional sign off the front and says whether it was a minus. -/
def signed : List Char → Bool × List Char
  | '-' :: cs => (true, cs)
  | '+' :: cs => (false, cs)
  | cs => (false, cs)

/-- Nothing, or an `e` or `E` with an optional sign and at least one digit.  `size` says what the
digits stand for. -/
def exponent? (size : List Char → Nat) : List Char → Option Int
  | [] => some 0
  | c :: cs =>
      let (negative, digits) := signed cs
      if (c = 'e' ∨ c = 'E') ∧ digits ≠ [] ∧ digits.all Char.isDigit then
        some (if negative then -(size digits : Int) else size digits)
      else none

/-- From this size on an exponent takes no more digits. -/
def exponentLimit : Nat := 65536

/-- The size of the exponent of a numeral.  Once it has reached the limit, further digits are read
but do not count. -/
def exponentSize (digits : List Char) : Nat :=
  digits.foldl
    (fun size c => if size < exponentLimit then 10 * size + (c.toNat - '0'.toNat) else size) 0

/-- Digits with an optional point, at least one of them, and an optional exponent. -/
def size? (cs : List Char) : Option Decimal :=
  let whole := cs.takeWhile Char.isDigit
  let rest := cs.dropWhile Char.isDigit
  let hasPoint := rest.head? = some '.'
  let fraction := if hasPoint then (rest.drop 1).takeWhile Char.isDigit else []
  let rest := if hasPoint then (rest.drop 1).dropWhile Char.isDigit else rest
  if whole = [] ∧ fraction = [] then none
  else (exponent? exponentSize rest).map fun exponent =>
    ⟨digitsValue (whole ++ fraction), exponent - fraction.length⟩

end Numeral

/-- What the reader of floating-point numbers gives.  It reads more than decimal numbers. -/
inductive FloatReading where
  | notANumber
  | infinity (negative : Bool)
  | finite (negative : Bool) (size : Decimal)
deriving DecidableEq, Repr

/-- Reads a floating-point number: an optional sign and a decimal number, or one of the words `inf`,
`infinity` and `nan` in letters of either case. -/
def FloatReading.ofText? (cs : List Char) : Option FloatReading :=
  let (negative, body) := Numeral.signed cs
  match Numeral.size? body with
  | some size => some (.finite negative size)
  | none =>
      let word := body.map Char.toLower
      if word = "inf".toList ∨ word = "infinity".toList then some (.infinity negative)
      else if word = "nan".toList then some .notANumber
      else none

namespace Numeral

/-- Whether a character may stand in a decimal number. -/
def isDecimalChar (c : Char) : Bool :=
  c.isDigit || c = '.' || c = 'e' || c = 'E' || c = '+' || c = '-'

/-- A decimal number.  The reader of floating-point numbers reads it, and the words that it knows
besides are left out by their characters. -/
def decimal? (cs : List Char) : Option Numeral :=
  if cs.all isDecimalChar then
    match FloatReading.ofText? cs with
    | some (.finite negative size) => some (.decimal negative size)
    | some (.infinity negative) => some (.infinity negative)
    | some .notANumber | none => none
  else none

/-- Reads a text without white space at its ends. -/
def parse? (cs : List Char) : Option Numeral :=
  if cs = [] then some .empty
  else if cs = "Infinity".toList ∨ cs = "+Infinity".toList then some (.infinity false)
  else if cs = "-Infinity".toList then some (.infinity true)
  else match cs with
    | '0' :: 'x' :: digits => radix? 16 digits
    | '0' :: 'X' :: digits => radix? 16 digits
    | '0' :: 'o' :: digits => radix? 8 digits
    | '0' :: 'O' :: digits => radix? 8 digits
    | '0' :: 'b' :: digits => radix? 2 digits
    | '0' :: 'B' :: digits => radix? 2 digits
    | cs => decimal? cs

/-- The double a numeral stands for.  Radix digits are added up in doubles, one after the other. -/
def value : Numeral → Float
  | .empty => 0
  | .infinity negative => if negative then -1 / 0 else 1 / 0
  | .radix base digits =>
      digits.foldl (fun value digit => value * Float.ofNat base + Float.ofNat digit) 0
  | .decimal negative size => if negative then -size.toFloat else size.toFloat

end Numeral

/-- The number a text stands for. -/
def textNumber (s : String) : Float :=
  match Numeral.parse? (trimBlanks s.toList) with
  | some numeral => numeral.value
  | none => notANumber

end ScriptTree
