/-!
# Texts

Scripts see a text in three ways.  They count and index it in UTF-16 code units, where a character
outside the Basic Multilingual Plane takes two units and one such half alone is shown as the
replacement character.  They read it as the key of an array element when it is the decimal text of a
natural number below `2 ^ 64`: digits only and no leading zero.  And where it is read as a number,
the white space at its two ends does not count, which is that of the Unicode property White_Space.
-/

namespace ScriptTree

/-! ## Code units -/

/-- The code units of one character. -/
def charUnits (c : Char) : List Nat :=
  let n := c.toNat
  if n < 0x10000 then [n]
  else [0xD800 + (n - 0x10000) / 0x400, 0xDC00 + (n - 0x10000) % 0x400]

/-- The code units of a text. -/
def textUnits (s : String) : List Nat := s.toList.flatMap charUnits

/-- The length of a text in code units. -/
def unitLength (s : String) : Nat := (textUnits s).length

/-- A text of one code unit.  A half of a pair becomes U+FFFD. -/
def unitText (unit : Nat) : String :=
  if 0xD800 ≤ unit ∧ unit < 0xE000 then "�" else String.singleton (Char.ofNat unit)

/-- The code unit at a position, as a text of its own. -/
def unitAt? (s : String) (index : Nat) : Option String := (textUnits s)[index]?.map unitText

/-! ## Indices -/

/-- The natural number a list of decimal digits stands for. -/
def digitsValue (digits : List Char) : Nat :=
  digits.foldl (fun value c => 10 * value + (c.toNat - '0'.toNat)) 0

/-- The decimal text of a natural number. -/
def indexText (n : Nat) : String := String.ofList (Nat.toDigits 10 n)

/-- The index a key names. -/
def arrayIndex? (key : String) : Option Nat :=
  let digits := key.toList
  if digits = [] ∨ (digits.head? = some '0' ∧ 1 < digits.length) then none
  else if digits.all Char.isDigit ∧ digitsValue digits < UInt64.size then some (digitsValue digits)
  else none

/-! ## White space -/

/-- The ranges of code points that are white space, both ends included. -/
def blankRanges : List (Nat × Nat) :=
  [(0x0009, 0x000D), (0x0020, 0x0020), (0x0085, 0x0085), (0x00A0, 0x00A0), (0x1680, 0x1680),
   (0x2000, 0x200A), (0x2028, 0x2029), (0x202F, 0x202F), (0x205F, 0x205F), (0x3000, 0x3000)]

/-- Whether the character is white space. -/
def isBlank (c : Char) : Bool := blankRanges.any fun r => r.1 ≤ c.toNat && c.toNat ≤ r.2

/-- The text without the white space at its two ends. -/
def trimBlanks (cs : List Char) : List Char :=
  ((cs.dropWhile isBlank).reverse.dropWhile isBlank).reverse

end ScriptTree
