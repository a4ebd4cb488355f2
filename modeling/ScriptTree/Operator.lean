import ScriptTree.Construction
import ScriptTree.Equality

/-!
# Operators

What unary and binary operators do with the values of their operands.  Each binary operator converts
its left operand first; only the shifts begin with the right one.
-/

namespace ScriptTree

namespace Runner

/-- An operator on the numbers of two values. -/
@[inline] def onNumbers (r : Runner) (f : Float → Float → Value) (left right : Value) :
    Eval Value := do
  let a ← r.toNumber left
  let b ← r.toNumber right
  return f a b

/-- An operator on the words of two values, the result read as a signed number. -/
@[inline] def onWords (r : Runner) (f : UInt32 → UInt32 → UInt32) (left right : Value) :
    Eval Value := do
  let a ← r.toWord left
  let b ← r.toWord right
  return .number (signedWord (f a b))

/-- A shift of the word of `left` by that of `right`, which is converted first. -/
@[inline] def shift (r : Runner) (f : UInt32 → UInt32 → Float) (left right : Value) :
    Eval Value := do
  let amount := shiftAmount (← r.toWord right)
  let word ← r.toWord left
  return .number (f word amount)

/-- A sum, or a joined text when an operand is a text before any conversion. -/
def add (r : Runner) (left right : Value) : Eval Value :=
  match left, right with
  | .string _, _ | _, .string _ => do
      let a ← r.toText left
      let b ← r.toText right
      return .string (a ++ b)
  | _, _ => r.onNumbers (fun a b => .number (a + b)) left right

/-- Applies a binary operator to two values. -/
def applyBinary (r : Runner) (op : BinaryOp) (left right : Value) : Eval Value :=
  match op with
  | .add => r.add left right
  | .sub => r.onNumbers (fun a b => .number (a - b)) left right
  | .mul => r.onNumbers (fun a b => .number (a * b)) left right
  | .div => r.onNumbers (fun a b => .number (a / b)) left right
  | .mod => r.onNumbers (fun a b => .number (remainder a b)) left right
  | .exp => r.onNumbers (fun a b => .number (power a b)) left right
  | .eq => return .bool (← r.looseEquals left right)
  | .notEq => return .bool (!(← r.looseEquals left right))
  | .strictEq => return .bool (left.strictEquals right)
  | .strictNotEq => return .bool (!left.strictEquals right)
  | .lt => r.onNumbers (fun a b => .bool (a < b)) left right
  | .ltEq => r.onNumbers (fun a b => .bool (a ≤ b)) left right
  | .gt => r.onNumbers (fun a b => .bool (b < a)) left right
  | .gtEq => r.onNumbers (fun a b => .bool (b ≤ a)) left right
  | .bitAnd => r.onWords (· &&& ·) left right
  | .bitOr => r.onWords (· ||| ·) left right
  | .bitXor => r.onWords (· ^^^ ·) left right
  | .shiftLeft => r.shift (fun w amount => signedWord (w <<< amount)) left right
  | .shiftRight =>
      r.shift (fun w amount => Float.ofInt (w.toInt32 >>> amount.toInt32).toInt) left right
  | .shiftRightUnsigned => r.shift (fun w amount => unsignedWord (w >>> amount)) left right
  | .isIn => return .bool (← r.isIn left right)
  | .instanceOf => return .bool (← r.isInstanceOf left right)

/-- Applies a unary operator other than `delete` to a value. -/
def applyUnary (r : Runner) (op : UnaryOp) (v : Value) : Eval Value :=
  match op with
  | .minus => return .number (-(← r.toNumber v))
  | .plus => return .number (← r.toNumber v)
  | .not => return .bool (!v.truthy)
  | .bitNot => return .number (signedWord (~~~(← r.toWord v)))
  | .typeof => return .string (← Eval.inspect (·.typeOf v))
  | .void => return .undefined
  | .delete => return .bool true

end Runner

/-- Whether a logical operator answers with its left operand. -/
def LogicalOp.stopsAt (op : LogicalOp) (left : Value) : Bool :=
  match op with
  | .and => !left.truthy
  | .or => left.truthy
  | .nullish => !left.isNullish

end ScriptTree
