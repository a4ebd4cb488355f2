import ScriptTree.Interpreter
import ScriptTree.Proofs.Discipline

/-!
# The order of conversions

A binary operator that works on numbers, words or texts converts both operands and computes its
result from what they have become (`Runner.convertBoth`).  The conversions can run script, so their
order shows.  All operators convert the left operand first, but for the shifts: these begin with the
right one (`conversion_order`).
-/

namespace ScriptTree

namespace BinaryOp

/-- Whether the operator converts its operands to numbers, words or texts. -/
def converts : BinaryOp → Bool
  | .eq | .notEq | .strictEq | .strictNotEq | .isIn | .instanceOf => false
  | _ => true

/-- Whether the operator shifts a word. -/
def isShift : BinaryOp → Bool
  | .shiftLeft | .shiftRight | .shiftRightUnsigned => true
  | _ => false

/-- What the operator converts its operands to: texts for a sum with a text, numbers otherwise. -/
def hint (op : BinaryOp) (left right : Value) : Hint :=
  match op, left, right with
  | .add, .string _, _ | .add, _, .string _ => .string
  | _, _, _ => .number

end BinaryOp

/-! ## Two conversions -/

namespace Runner

/-- The number or the text of a value. -/
def convert (r : Runner) (hint : Hint) (v : Value) : Eval Primitive :=
  match hint with
  | .number => return .number (← r.toNumber v)
  | .string => return .string (← r.toText v)

/-- Converts one value, then another, and computes a result from both. -/
def convertBoth (r : Runner) (hint : Hint) (first second : Value)
    (result : Primitive → Primitive → Value) : Eval Value := do
  let a ← r.convert hint first
  let b ← r.convert hint second
  return result a b

variable (r : Runner) (left right : Value)

/-- If the first conversion fails, that is all that happens. -/
theorem convertBoth_of_fault {hint : Hint} {first second : Value} {m n : Machine} {f : Fault}
    (fails : r.convert hint first m = .fault f n) (result : Primitive → Primitive → Value) :
    r.convertBoth hint first second result m = .fault f n :=
  Eval.bind_of_fault fails

theorem onNumbers_eq (f : Float → Float → Value) :
    r.onNumbers f left right =
      r.convertBoth .number left right fun a b => f a.toNumber b.toNumber := by
  simp [onNumbers, convertBoth, convert, Primitive.toNumber]

theorem onWords_eq (f : UInt32 → UInt32 → UInt32) :
    r.onWords f left right = r.convertBoth .number left right fun a b =>
      .number (signedWord (f (ScriptTree.toWord a.toNumber) (ScriptTree.toWord b.toNumber))) := by
  simp [onWords, convertBoth, convert, Runner.toWord, Primitive.toNumber]

/-- A shift converts its right operand first. -/
theorem shift_eq (f : UInt32 → UInt32 → Float) :
    r.shift f left right = r.convertBoth .number right left fun b a =>
      .number (f (ScriptTree.toWord a.toNumber)
        (shiftAmount (ScriptTree.toWord b.toNumber))) := by
  simp [shift, convertBoth, convert, Runner.toWord, Primitive.toNumber]

end Runner

/-! ## Sums -/

theorem BinaryOp.hint_add_right (left : Value) (s : String) :
    hint .add left (.string s) = .string := by
  cases left with
  | object o => rfl
  | primitive p => cases p <;> rfl

/-- Without a text beside it, an operand of a sum becomes a number. -/
theorem BinaryOp.hint_add_other {left right : Value} (hl : ∀ s, left ≠ .string s)
    (hr : ∀ s, right ≠ .string s) : hint .add left right = .number := by
  unfold hint
  split
  · exact absurd rfl (hl _)
  · exact absurd rfl (hr _)
  · rfl

/-- Two texts joined, or the sum of two numbers. -/
def Primitive.sum : Primitive → Primitive → Value
  | .string s, .string t => .string (s ++ t)
  | p, q => .number (p.toNumber + q.toNumber)

theorem Runner.add_eq (r : Runner) (left right : Value) :
    r.add left right =
      r.convertBoth (BinaryOp.hint .add left right) left right Primitive.sum := by
  unfold Runner.add
  split
  next s =>
    have hint : BinaryOp.hint .add (.string s) right = .string := rfl
    simp [hint, convertBoth, convert, Primitive.sum]
  next s _ =>
    simp [BinaryOp.hint_add_right, convertBoth, convert, Primitive.sum]
  next hl hr =>
    rw [BinaryOp.hint_add_other hl hr]
    simp [onNumbers, convertBoth, convert, Primitive.sum, Primitive.toNumber]

/-! ## Operators -/

namespace BinaryOp

/-- The operator converts its left operand to the end, then its right one, and computes the result
from both. -/
def LeftFirst (op : BinaryOp) : Prop :=
  ∀ left right, ∃ result, ∀ r : Runner,
    r.applyBinary op left right = r.convertBoth (op.hint left right) left right result

/-- The operator converts its right operand to the end, then its left one, and computes the result
from both. -/
def RightFirst (op : BinaryOp) : Prop :=
  ∀ left right, ∃ result, ∀ r : Runner,
    r.applyBinary op left right = r.convertBoth (op.hint left right) right left result

variable {op : BinaryOp}

theorem leftFirst_of_not_isShift (converts : op.converts = true) (h : op.isShift = false) :
    op.LeftFirst := by
  intro left right
  cases op with
  | add => exact ⟨_, fun r => r.add_eq left right⟩
  | sub | mul | div | mod | exp | lt | ltEq | gt | gtEq =>
      exact ⟨_, fun r => r.onNumbers_eq left right _⟩
  | bitAnd | bitOr | bitXor => exact ⟨_, fun r => r.onWords_eq left right _⟩
  | shiftLeft | shiftRight | shiftRightUnsigned => cases h
  | eq | notEq | strictEq | strictNotEq | isIn | instanceOf => cases converts

theorem rightFirst_of_isShift (h : op.isShift = true) : op.RightFirst := by
  intro left right
  cases op with
  | shiftLeft =>
      exact ⟨_, fun r => r.shift_eq left right fun w amount => signedWord (w <<< amount)⟩
  | shiftRight =>
      exact ⟨_, fun r => r.shift_eq left right fun w amount =>
        Float.ofInt (w.toInt32 >>> amount.toInt32).toInt⟩
  | shiftRightUnsigned =>
      exact ⟨_, fun r => r.shift_eq left right fun w amount => unsignedWord (w >>> amount)⟩
  | _ => cases h

end BinaryOp

/-- A function and two objects that have it as their `valueOf`.  It throws its receiver. -/
def throwingMachine : Machine :=
  { Machine.empty with
    objects := #[⟨some .functionPrototype, .empty, .function (.closure
        ⟨none, ⟨none, [], .block [.throw .this], false, false, none⟩, ⟨0⟩, false⟩)⟩,
      ⟨none, .ofList [("valueOf", .writable (.object ⟨0⟩))], .ordinary⟩,
      ⟨none, .ofList [("valueOf", .writable (.object ⟨0⟩))], .ordinary⟩] }

/-- The fault with which one of the two objects converts. -/
def thrownObject (o : ObjectId) : Fault := .thrown (.object o) "[object Object]" [⟨none, none⟩]

theorem throwing_first :
    ∃ n, (Settings.standard.runner 4).convert .number (.object ⟨1⟩) throwingMachine =
      .fault (thrownObject ⟨1⟩) n := ⟨_, rfl⟩

theorem throwing_second :
    ∃ n, (Settings.standard.runner 4).convert .number (.object ⟨2⟩) throwingMachine =
      .fault (thrownObject ⟨2⟩) n := ⟨_, rfl⟩

/-- No operator does both: where the conversions of two objects fail with different faults, the
first one shows. -/
theorem BinaryOp.not_leftFirst_and_rightFirst {op : BinaryOp} (left : op.LeftFirst)
    (right : op.RightFirst) : False := by
  obtain ⟨f, leftFirst⟩ := left (.object ⟨1⟩) (.object ⟨2⟩)
  obtain ⟨g, rightFirst⟩ := right (.object ⟨1⟩) (.object ⟨2⟩)
  have hint : op.hint (.object ⟨1⟩) (.object ⟨2⟩) = .number := by cases op <;> rfl
  rw [hint] at leftFirst rightFirst
  obtain ⟨n, first⟩ := throwing_first
  obtain ⟨n', second⟩ := throwing_second
  have same := congrFun ((leftFirst (Settings.standard.runner 4)).symm.trans
    (rightFirst (Settings.standard.runner 4))) throwingMachine
  rw [Runner.convertBoth_of_fault _ first, Runner.convertBoth_of_fault _ second] at same
  cases same

/-- An operator on numbers, words or texts converts its left operand first exactly when it is not a
shift, and its right one first exactly when it is.  If the first conversion fails, the operator
fails with the same fault and leaves the machine as that conversion did: the other operand is not
looked at. -/
theorem conversion_order (op : BinaryOp) (converts : op.converts = true) :
    (op.LeftFirst ↔ op.isShift = false) ∧
    (op.RightFirst ↔ op.isShift = true) ∧
    ∀ (r : Runner) (left right : Value) (m n : Machine) (f : Fault),
      (op.isShift = false → r.convert (op.hint left right) left m = .fault f n →
        r.applyBinary op left right m = .fault f n) ∧
      (op.isShift = true → r.convert (op.hint left right) right m = .fault f n →
        r.applyBinary op left right m = .fault f n) := by
  have leftFirst (h : op.isShift = false) := BinaryOp.leftFirst_of_not_isShift converts h
  have rightFirst (h : op.isShift = true) := BinaryOp.rightFirst_of_isShift h
  refine ⟨⟨?_, leftFirst⟩, ⟨?_, rightFirst⟩, ?_⟩
  · intro left
    refine Bool.of_not_eq_true fun shift => ?_
    exact BinaryOp.not_leftFirst_and_rightFirst left (rightFirst shift)
  · intro right
    refine Bool.of_not_eq_false fun notShift => ?_
    exact BinaryOp.not_leftFirst_and_rightFirst (leftFirst notShift) right
  · intro r left right m n f
    constructor
    · intro notShift fails
      obtain ⟨result, converts⟩ := leftFirst notShift left right
      rw [converts r]
      exact r.convertBoth_of_fault fails result
    · intro shift fails
      obtain ⟨result, converts⟩ := rightFirst shift left right
      rw [converts r]
      exact r.convertBoth_of_fault fails result

/-- Between two objects that throw themselves, a difference throws the left one. -/
theorem conversion_order_difference :
    BinaryOp.converts .sub = true ∧ BinaryOp.LeftFirst .sub ∧
    ∃ n, (Settings.standard.runner 4).applyBinary .sub (.object ⟨1⟩) (.object ⟨2⟩)
      throwingMachine = .fault (.thrown (.object ⟨1⟩) "[object Object]" [⟨none, none⟩]) n := by
  obtain ⟨leftFirst, _, fails⟩ := conversion_order .sub rfl
  obtain ⟨n, first⟩ := throwing_first
  exact ⟨rfl, leftFirst.mpr rfl, n, (fails _ _ _ _ _ _).1 rfl first⟩

/-- A shift throws the right one, though the conversion of the left one fails as well. -/
theorem shift_throws_right :
    let r := Settings.standard.runner 4
    (∃ n, r.toNumber (.object ⟨1⟩) throwingMachine =
      .fault (.thrown (.object ⟨1⟩) "[object Object]" [⟨none, none⟩]) n) ∧
    ∃ n, r.applyBinary .shiftLeft (.object ⟨1⟩) (.object ⟨2⟩) throwingMachine =
      .fault (.thrown (.object ⟨2⟩) "[object Object]" [⟨none, none⟩]) n :=
  ⟨⟨_, rfl⟩, _, rfl⟩

end ScriptTree
