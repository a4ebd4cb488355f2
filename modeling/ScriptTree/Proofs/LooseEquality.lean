import ScriptTree.Equality

/-!
# Loose equality

*Rounds.*  Loose equality can be told as a loop.  Each round looks at the two operands and the first
of ten rules that fits gives an answer, turns a boolean into its number, or converts an object
(`Value.round`).  The order of the rules treats left and right differently.  The loop is never
longer than four rounds and never converts twice, and it gives what `Runner.looseEquals` gives
(`looseEqualsWithin_eq`).

*Symmetry.*  The operands can be exchanged, since numbers can be (`number_beq_comm`), and values
that are strictly equal are loosely equal (`looseEquals_symmetric`).
-/

namespace ScriptTree

/-! ## Numbers -/

open Float.Model in
/-- Exchanging two numbers turns their order round. -/
theorem compare_number_swap (x y : UnpackedFloat) :
    (x.compare y).map Ordering.swap = y.compare x := by
  cases x with
  | notANumber => cases y <;> rfl
  | infinity s =>
      cases s <;> cases y with
      | notANumber => rfl
      | infinity s' => cases s' <;> rfl
      | zero s' => rfl
      | finite s' n e pos => cases s' <;> rfl
  | zero s =>
      cases y with
      | notANumber => rfl
      | infinity s' => cases s' <;> rfl
      | zero s' => rfl
      | finite s' n e pos => cases s' <;> rfl
  | finite s n e pos =>
      have swapped (n' : Nat) (e' : Int) :
          ((compare e e').then (compare n n')).swap = (compare e' e).then (compare n' n) := by
        rw [Ordering.swap_then, Int.compare_swap, Nat.compare_swap]
      cases y with
      | notANumber => cases s <;> rfl
      | infinity s' => cases s <;> cases s' <;> rfl
      | zero s' => cases s <;> rfl
      | finite s' n' e' pos' =>
          cases s with
          | positive =>
              cases s' with
              | positive => exact congrArg some (swapped n' e')
              | negative => rfl
          | negative =>
              cases s' with
              | positive => rfl
              -- The order of two negative numbers is opposite to that of their sizes.
              | negative => exact congrArg (fun order => some order.swap) (swapped n' e')

/-- Equality of numbers is symmetric. -/
theorem number_beq_comm (x y : Float) : (x == y) = (y == x) := by
  show (x.toModel.unpack.compare y.toModel.unpack == some .eq) =
    (y.toModel.unpack.compare x.toModel.unpack == some .eq)
  rw [← compare_number_swap x.toModel.unpack y.toModel.unpack]
  cases x.toModel.unpack.compare y.toModel.unpack with
  | none => rfl
  | some order => cases order <;> rfl

/-! ## Primitives -/

namespace Primitive

theorem strictEquals_comm (p q : Primitive) : p.strictEquals q = q.strictEquals p := by
  cases p <;> cases q <;> simp [strictEquals, number_beq_comm, Bool.beq_comm]

theorem looseEqualsUnbool_comm (p q : Primitive) :
    p.looseEqualsUnbool q = q.looseEqualsUnbool p := by
  cases p <;> cases q <;>
    simp [looseEqualsUnbool, strictEquals_comm, isNullish, number_beq_comm]

theorem looseEquals_comm (p q : Primitive) : p.looseEquals q = q.looseEquals p :=
  looseEqualsUnbool_comm p.unbool q.unbool

/-- Primitives that are strictly equal are loosely equal. -/
theorem looseEquals_of_strictEquals {p q : Primitive} (h : p.strictEquals q = true) :
    p.looseEquals q = true := by
  cases p with
  | undefined =>
      cases q with
      | undefined => rfl
      | _ => cases h
  | null =>
      cases q with
      | null => rfl
      | _ => cases h
  | bool b =>
      cases q with
      | bool c =>
          have same : b = c := by simpa [strictEquals] using h
          subst same
          cases b <;> rfl
      | _ => cases h
  | number x =>
      cases q with
      | number y => exact h
      | _ => cases h
  | string s =>
      cases q with
      | string t => exact h
      | _ => cases h

end Primitive

/-! ## Rounds -/

/-- What one round of a comparison comes to. -/
inductive Comparison where
  | answer (b : Bool)
  /-- The comparison goes on with other operands. -/
  | again (left right : Value)
  | convertLeft (o : ObjectId) (right : Value)
  | convertRight (left : Value) (o : ObjectId)

/-- One round of a comparison.  The first rule that fits decides. -/
def Value.round : Value → Value → Comparison
  | .undefined, .undefined | .undefined, .null | .null, .undefined | .null, .null => .answer true
  | .undefined, _ | .null, _ | _, .undefined | _, .null => .answer false
  | .number x, .string s => .answer (x == textNumber s)
  | .string s, .number x => .answer (textNumber s == x)
  | .bool b, right => .again (.number (Primitive.boolNumber b)) right
  | left, .bool b => .again left (.number (Primitive.boolNumber b))
  | .object a, .object b => .answer (Value.strictEquals (.object a) (.object b))
  | .object a, right => .convertLeft a right
  | left, .object b => .convertRight left b
  | left, right => .answer (left.strictEquals right)

/-- Whether two values are compared without a conversion of an object: neither is one, both are, or
the other one is null or undefined. -/
def Value.comparesAsIs : Value → Value → Bool
  | .primitive _, .primitive _ | .object _, .object _ => true
  | .object _, .primitive q => q.isNullish
  | .primitive p, .object _ => p.isNullish

namespace Runner

variable (r : Runner)

/-- Loose equality by rounds.  It gives up when it needs more rounds, or more conversions, than it
may have. -/
def looseEqualsWithin : (rounds conversions : Nat) → Value → Value → Eval (Option Bool)
  | 0, _, _, _ => pure none
  | rounds + 1, conversions, left, right =>
      match left.round right, conversions with
      | .answer b, _ => pure (some b)
      | .again left right, conversions => looseEqualsWithin rounds conversions left right
      | .convertLeft o right, conversions + 1 => do
          let p ← r.toPrimitive .number (.object o)
          looseEqualsWithin rounds conversions (.primitive p) right
      | .convertRight left o, conversions + 1 => do
          let p ← r.toPrimitive .number (.object o)
          looseEqualsWithin rounds conversions left (.primitive p)
      | .convertLeft .., 0 | .convertRight .., 0 => pure none

/-- Two primitives need three rounds at most: one for each boolean, and one for the answer. -/
theorem looseEqualsWithin_primitives (rounds conversions : Nat) (p q : Primitive) :
    r.looseEqualsWithin (rounds + 3) conversions (.primitive p) (.primitive q) =
      pure (some (p.looseEquals q)) := by
  cases p <;> cases q <;> rfl

/-- Beside a number, two rounds are enough. -/
theorem looseEqualsWithin_number_right (rounds conversions : Nat) (p : Primitive) (x : Float) :
    r.looseEqualsWithin (rounds + 2) conversions (.primitive p) (.number x) =
      pure (some (p.looseEquals (.number x))) := by
  cases p <;> rfl

theorem looseEqualsWithin_number_left (rounds conversions : Nat) (x : Float) (q : Primitive) :
    r.looseEqualsWithin (rounds + 2) conversions (.number x) (.primitive q) =
      pure (some (Primitive.looseEquals (.number x) q)) := by
  cases q <;> rfl

/-- Beside an object, a primitive that is not nullish makes the object convert.  A boolean takes one
round more, but then it is a number that is left to compare. -/
theorem looseEqualsWithin_object_right {p : Primitive} (h : p.isNullish = false) (b : ObjectId) :
    r.looseEqualsWithin 4 1 (.primitive p) (.object b) =
      r.toPrimitive .number (.object b) >>= fun q => pure (some (p.looseEquals q)) := by
  cases p with
  | undefined => cases h
  | null => cases h
  | bool c =>
      show (r.toPrimitive .number (.object b) >>= fun q =>
        r.looseEqualsWithin 2 0 (.number (Primitive.boolNumber c)) (.primitive q)) = _
      simp only [looseEqualsWithin_number_left]
      rfl
  | number x =>
      show (r.toPrimitive .number (.object b) >>= fun q =>
        r.looseEqualsWithin 3 0 (.number x) (.primitive q)) = _
      simp only [looseEqualsWithin_primitives]
  | string s =>
      show (r.toPrimitive .number (.object b) >>= fun q =>
        r.looseEqualsWithin 3 0 (.string s) (.primitive q)) = _
      simp only [looseEqualsWithin_primitives]

theorem looseEqualsWithin_object_left (a : ObjectId) {q : Primitive} (h : q.isNullish = false) :
    r.looseEqualsWithin 4 1 (.object a) (.primitive q) =
      r.toPrimitive .number (.object a) >>= fun p => pure (some (p.looseEquals q)) := by
  cases q with
  | undefined => cases h
  | null => cases h
  | bool c =>
      show (r.toPrimitive .number (.object a) >>= fun p =>
        r.looseEqualsWithin 2 0 (.primitive p) (.number (Primitive.boolNumber c))) = _
      simp only [looseEqualsWithin_number_right]
      rfl
  | number x =>
      show (r.toPrimitive .number (.object a) >>= fun p =>
        r.looseEqualsWithin 3 0 (.primitive p) (.number x)) = _
      simp only [looseEqualsWithin_primitives]
  | string s =>
      show (r.toPrimitive .number (.object a) >>= fun p =>
        r.looseEqualsWithin 3 0 (.primitive p) (.string s)) = _
      simp only [looseEqualsWithin_primitives]

end Runner

/-- Where no object has to be converted, the answer is the same for all runners and needs no
conversion. -/
theorem Value.compared_asIs {left right : Value} (h : left.comparesAsIs right = true) :
    ∃ answer, ∀ (r : Runner) (conversions : Nat),
      r.looseEqualsWithin 4 conversions left right = pure (some answer) ∧
      r.looseEquals left right = pure answer := by
  cases left with
  | primitive p =>
      cases right with
      | primitive q =>
          exact ⟨p.looseEquals q, fun r conversions =>
            ⟨r.looseEqualsWithin_primitives 1 conversions p q, rfl⟩⟩
      | object b =>
          cases p with
          | undefined => exact ⟨false, fun _ _ => ⟨rfl, rfl⟩⟩
          | null => exact ⟨false, fun _ _ => ⟨rfl, rfl⟩⟩
          | _ => cases h
  | object a =>
      cases right with
      | object b => exact ⟨a == b, fun _ _ => ⟨rfl, rfl⟩⟩
      | primitive q =>
          cases q with
          | undefined => exact ⟨false, fun _ _ => ⟨rfl, rfl⟩⟩
          | null => exact ⟨false, fun _ _ => ⟨rfl, rfl⟩⟩
          | _ => cases h

namespace Runner

variable (r : Runner)

/-- Four rounds and one conversion are enough, and the answer is that of loose equality. -/
theorem looseEqualsWithin_eq (left right : Value) :
    r.looseEqualsWithin 4 1 left right = some <$> r.looseEquals left right := by
  cases asIs : left.comparesAsIs right with
  | true =>
      obtain ⟨answer, compared⟩ := Value.compared_asIs asIs
      rw [(compared r 1).1, (compared r 1).2, map_pure]
  | false =>
      cases left with
      | primitive p =>
          cases right with
          | primitive q => cases asIs
          | object b =>
              have nullish : p.isNullish = false := asIs
              simp [looseEqualsWithin_object_right r nullish b, looseEquals, nullish]
      | object a =>
          cases right with
          | object b => cases asIs
          | primitive q =>
              have nullish : q.isNullish = false := asIs
              simp [looseEqualsWithin_object_left r a nullish, looseEquals, nullish]

/-! ## Symmetry -/

/-- The operands of loose equality can be exchanged, whatever their conversions do. -/
theorem looseEquals_comm (left right : Value) :
    r.looseEquals left right = r.looseEquals right left := by
  cases left with
  | primitive p =>
      cases right with
      | primitive q => simp [looseEquals, Primitive.looseEquals_comm p q]
      | object b => simp [looseEquals, Primitive.looseEquals_comm p]
  | object a =>
      cases right with
      | primitive q => simp [looseEquals, Primitive.looseEquals_comm q]
      | object b => simp [looseEquals, Bool.beq_comm]

theorem looseEquals_of_strictEquals {left right : Value} (h : left.strictEquals right = true) :
    r.looseEquals left right = pure true := by
  cases left with
  | primitive p =>
      cases right with
      | primitive q => rw [looseEquals, Primitive.looseEquals_of_strictEquals h]
      | object b => cases h
  | object a =>
      cases right with
      | primitive q => cases h
      | object b => exact congrArg pure h

end Runner

/-- Loose equality is symmetric: either order gives the same answer or the same fault and leaves the
same machine.  As a loop it ends within four rounds with one conversion at most, and without any if
neither operand is an object, both are, or the other one is null or undefined.  It answers yes, and
changes nothing, if the operands are strictly equal. -/
theorem looseEquals_symmetric (left right : Value) :
    (∀ (r : Runner) (m : Machine), r.looseEquals left right m = r.looseEquals right left m) ∧
    (∀ r : Runner, r.looseEqualsWithin 4 1 left right = some <$> r.looseEquals left right) ∧
    (left.comparesAsIs right = true → ∃ answer, ∀ (r : Runner) (m : Machine),
      r.looseEqualsWithin 4 0 left right m = .value (some answer) m ∧
      r.looseEquals left right m = .value answer m) ∧
    (left.strictEquals right = true →
      ∀ (r : Runner) (m : Machine), r.looseEquals left right m = .value true m) := by
  refine ⟨?_, fun r => r.looseEqualsWithin_eq left right, ?_, ?_⟩
  · intro r m
    rw [r.looseEquals_comm left right]
  · intro asIs
    obtain ⟨answer, compared⟩ := Value.compared_asIs asIs
    refine ⟨answer, fun r m => ?_⟩
    rw [(compared r 0).1, (compared r 0).2]
    exact ⟨rfl, rfl⟩
  · intro strict r m
    rw [r.looseEquals_of_strictEquals strict]
    rfl

end ScriptTree
