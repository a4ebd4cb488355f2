import ScriptTree.Json
import ScriptTree.Number.Numeral

/-!
# Reading JSON text

Reading has three stages.  `tokens?` cuts a text into tokens, one character at a time.  `parse?`
puts tokens together, with the open arrays and objects on a stack, so that nesting needs no bound.
It leaves two questions open: whether the escapes of a string pair up and whether a number fits a
double.  `Unchecked.check?` answers them and bounds the nesting.  A value that is skipped is never
checked.
-/

namespace ScriptTree

namespace Json

/-- A JSON value whose strings and numbers are well formed but not yet checked: `none` stands for a
string with half of a surrogate pair and for a number too large for a double. -/
inductive Unchecked where
  | null
  | bool (b : Bool)
  | number (n : Option JsonNumber)
  | string (s : Option String)
  | array (items : List Unchecked)
  | object (fields : List (Option String × Unchecked))

/-! ## Tokens -/

/-- The smallest parts of a JSON text. -/
inductive Token where
  | openArray
  | closeArray
  | openObject
  | closeObject
  | comma
  | colon
  | null
  | bool (b : Bool)
  | number (n : Option JsonNumber)
  | string (s : Option String)

/-- A part of a string: a character, or a code unit written as an escape. -/
inductive Piece where
  | char (c : Char)
  | unit (u : Nat)

/-- The character a pair of code units stands for. -/
def pairChar (high low : Nat) : Char :=
  Char.ofNat (0x10000 + (high - 0xD800) * 0x400 + (low - 0xDC00))

/-- Puts escaped pairs together.  A half without its partner has no text. -/
def joinPieces : List Piece → Option (List Char)
  | [] => some []
  | .char c :: rest => (joinPieces rest).map (c :: ·)
  | .unit high :: .unit low :: rest =>
      if 0xD800 ≤ high ∧ high < 0xDC00 then
        if 0xDC00 ≤ low ∧ low < 0xE000 then (joinPieces rest).map (pairChar high low :: ·)
        else none
      else if 0xDC00 ≤ high ∧ high < 0xE000 then none
      else (joinPieces (.unit low :: rest)).map (Char.ofNat high :: ·)
  | .unit u :: rest =>
      if 0xD800 ≤ u ∧ u < 0xE000 then none else (joinPieces rest).map (Char.ofNat u :: ·)

/-- A number that fits a double. -/
def real? (negative : Bool) (size : Decimal) : Option JsonNumber :=
  let x := size.toFloat
  if x.isInf then none else some (.real (if negative then -x else x))

/-- An integer, kept as one when it has at most 64 bits.  Minus zero is a real. -/
def integer? (negative : Bool) (size : Nat) : Option JsonNumber :=
  if negative then
    if 0 < size ∧ size ≤ Nat.pow 2 63 then some (.integer (-size)) else real? true ⟨size, 0⟩
  else if size < UInt64.size then some (.integer size)
  else real? false ⟨size, 0⟩

/-- Reads a number: digits without a leading zero, then an optional fraction and exponent. -/
def numberToken? (cs : List Char) : Option Token :=
  let negative := cs.head? = some '-'
  let cs := if negative then cs.drop 1 else cs
  let whole := cs.takeWhile Char.isDigit
  let rest := cs.dropWhile Char.isDigit
  let hasPoint := rest.head? = some '.'
  let fraction := if hasPoint then (rest.drop 1).takeWhile Char.isDigit else []
  let tail := if hasPoint then (rest.drop 1).dropWhile Char.isDigit else rest
  if whole = [] ∨ (whole.head? = some '0' ∧ 1 < whole.length) ∨ (hasPoint ∧ fraction = []) then none
  else if rest = [] then some (.number (integer? negative (digitsValue whole)))
  else (Numeral.exponent? digitsValue tail).map fun exponent =>
    .number (real? negative ⟨digitsValue (whole ++ fraction), exponent - fraction.length⟩)

/-- Reads a run of characters that is neither punctuation nor a string. -/
def wordToken? (cs : List Char) : Option Token :=
  if cs = "null".toList then some .null
  else if cs = "true".toList then some (.bool true)
  else if cs = "false".toList then some (.bool false)
  else numberToken? cs

/-- Where in a token the reader stands.  Parts read so far are kept last first. -/
inductive Cursor where
  | between
  | word (chars : List Char)
  | string (pieces : List Piece)
  | escape (pieces : List Piece)
  /-- Inside `\uXXXX`: the digits still missing and the value so far. -/
  | unicode (pieces : List Piece) (missing : Nat) (value : Nat)

/-- The token of a punctuation mark. -/
def punctuation? : Char → Option Token
  | '[' => some .openArray
  | ']' => some .closeArray
  | '{' => some .openObject
  | '}' => some .closeObject
  | ',' => some .comma
  | ':' => some .colon
  | _ => none

/-- Whether the character may stand between tokens. -/
def isGap (c : Char) : Bool := c = ' ' || c = '\t' || c = '\n' || c = '\r'

/-- The character a one-letter escape stands for. -/
def escaped? : Char → Option Char
  | '"' => some '"'
  | '\\' => some '\\'
  | '/' => some '/'
  | 'b' => some '\x08'
  | 'f' => some '\x0c'
  | 'n' => some '\n'
  | 'r' => some '\r'
  | 't' => some '\t'
  | _ => none

/-- Takes a character that ends whatever stood before it.  `done` holds the tokens so far, the last
one first. -/
def Cursor.boundary? (done : List Token) (c : Char) : Option (List Token × Cursor) :=
  match punctuation? c with
  | some token => some (token :: done, .between)
  | none =>
      if c = '"' then some (done, .string [])
      else if isGap c then some (done, .between)
      else none

/-- Whether the character ends a word. -/
def endsWord (c : Char) : Bool := (punctuation? c).isSome || c = '"' || isGap c

/-- Takes one more character. -/
def Cursor.step? : List Token × Cursor → Char → Option (List Token × Cursor)
  | (done, .between), c =>
      if endsWord c then Cursor.boundary? done c else some (done, .word [c])
  | (done, .word chars), c =>
      if endsWord c then
        (wordToken? chars.reverse).bind fun token => Cursor.boundary? (token :: done) c
      else some (done, .word (c :: chars))
  | (done, .string pieces), c =>
      if c = '"' then
        some (.string ((joinPieces pieces.reverse).map String.ofList) :: done, .between)
      else if c = '\\' then some (done, .escape pieces)
      else if c.toNat < 0x20 then none
      else some (done, .string (.char c :: pieces))
  | (done, .escape pieces), c =>
      if c = 'u' then some (done, .unicode pieces 4 0)
      else (escaped? c).map fun e => (done, .string (.char e :: pieces))
  | (done, .unicode pieces missing value), c =>
      (Numeral.digitValue? 16 c).map fun digit =>
        if missing ≤ 1 then (done, .string (.unit (16 * value + digit) :: pieces))
        else (done, .unicode pieces (missing - 1) (16 * value + digit))

/-- Cuts a text into its tokens. -/
def tokens? (cs : List Char) : Option (List Token) :=
  match cs.foldlM Cursor.step? ([], .between) with
  | some (done, .between) => some done.reverse
  | some (done, .word chars) => (wordToken? chars.reverse).map fun token => (token :: done).reverse
  | _ => none

/-! ## Values -/

/-- An array or object whose end has not been read.  What it holds so far is kept last first. -/
inductive OpenValue where
  | array (items : List Unchecked)
  /-- The key belongs to the value being read. -/
  | object (fields : List (Option String × Unchecked)) (key : Option String)

/-- What may come next. -/
inductive Expecting where
  /-- A value; the flag allows the end of the array just opened. -/
  | value (orEnd : Bool)
  /-- A key; the flag allows the end of the object just opened. -/
  | key (orEnd : Bool)
  | colon
  /-- A comma or the end of the innermost open value. -/
  | separator
  /-- Nothing, since the whole value has been read. -/
  | nothing (value : Unchecked)

/-- Puts a complete value into the innermost open one. -/
def close (value : Unchecked) : List OpenValue → List OpenValue × Expecting
  | [] => ([], .nothing value)
  | .array items :: rest => (.array (value :: items) :: rest, .separator)
  | .object fields key :: rest => (.object ((key, value) :: fields) none :: rest, .separator)

/-- Takes one more token. -/
def parseStep? : List OpenValue × Expecting → Token → Option (List OpenValue × Expecting)
  | (stack, .value _), .null => some (close .null stack)
  | (stack, .value _), .bool b => some (close (.bool b) stack)
  | (stack, .value _), .number n => some (close (.number n) stack)
  | (stack, .value _), .string s => some (close (.string s) stack)
  | (stack, .value _), .openArray => some (.array [] :: stack, .value true)
  | (stack, .value _), .openObject => some (.object [] none :: stack, .key true)
  | (.array items :: stack, .value true), .closeArray => some (close (.array items.reverse) stack)
  | (.object fields _ :: stack, .key _), .string s => some (.object fields s :: stack, .colon)
  | (.object fields _ :: stack, .key true), .closeObject =>
      some (close (.object fields.reverse) stack)
  | (stack, .colon), .colon => some (stack, .value false)
  | (.array items :: stack, .separator), .comma => some (.array items :: stack, .value false)
  | (.array items :: stack, .separator), .closeArray => some (close (.array items.reverse) stack)
  | (.object fields key :: stack, .separator), .comma =>
      some (.object fields key :: stack, .key false)
  | (.object fields _ :: stack, .separator), .closeObject =>
      some (close (.object fields.reverse) stack)
  | _, _ => none

/-- Reads one value and nothing after it. -/
def parse? (s : String) : Option Unchecked := do
  match ← (← tokens? s.toList).foldlM parseStep? ([], .value false) with
  | (_, .nothing value) => some value
  | _ => none

/-! ## Checks -/

namespace Unchecked

mutual

/-- Checks a value in which arrays and objects are nested at most `levels` deep. -/
def check? (levels : Nat) : Unchecked → Option Json
  | .null => some .null
  | .bool b => some (.bool b)
  | .number n => n.map .number
  | .string s => s.map .string
  | .array items =>
      match levels with
      | 0 => none
      | levels + 1 => (checkItems? levels items).map .array
  | .object fields =>
      match levels with
      | 0 => none
      | levels + 1 => (checkFields? levels fields).map .object

/-- Checks the items of an array. -/
def checkItems? (levels : Nat) : List Unchecked → Option (List Json)
  | [] => some []
  | item :: rest =>
      match check? levels item, checkItems? levels rest with
      | some item, some rest => some (item :: rest)
      | _, _ => none

/-- Checks the fields of an object. -/
def checkFields? (levels : Nat) : List (Option String × Unchecked) → Option (List (String × Json))
  | [] => some []
  | (key, value) :: rest =>
      match key, check? levels value, checkFields? levels rest with
      | some key, some value, some rest => some ((key, value) :: rest)
      | _, _, _ => none

end

/-- Checks a value, and skips every field of it whose key is not in the list: of those only the key
is checked. -/
def checkKnown? (levels : Nat) (known : List String) : Unchecked → Option Json
  | .object fields =>
      if fields.all fun field => field.1.isSome then
        check? levels (.object (fields.filter fun field => known.contains (field.1.getD "")))
      else none
  | value => check? levels value

end Unchecked

end Json

end ScriptTree
