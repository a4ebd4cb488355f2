import ScriptTree.Conversion

/-!
# Loose equality

Two primitives are loosely equal when they are equal after booleans, and texts beside numbers, have
become numbers.  An object beside a primitive is converted first, once.
-/

namespace ScriptTree

namespace Primitive

/-- Whether the primitive is null or undefined. -/
def isNullish : Primitive → Bool
  | .undefined | .null => true
  | _ => false

/-- The primitive with a boolean turned into its number. -/
def unbool : Primitive → Primitive
  | .bool b => .number (boolNumber b)
  | p => p

/-- Loose equality of primitives other than booleans. -/
def looseEqualsUnbool : Primitive → Primitive → Bool
  | .number a, .string b => a == textNumber b
  | .string a, .number b => textNumber a == b
  | p, q => if p.isNullish || q.isNullish then p.isNullish && q.isNullish else p.strictEquals q

/-- Loose equality of primitives. -/
def looseEquals (p q : Primitive) : Bool := p.unbool.looseEqualsUnbool q.unbool

end Primitive

namespace Runner

/-- Loose equality.  Neither null nor undefined makes an object convert. -/
def looseEquals (r : Runner) : Value → Value → Eval Bool
  | .primitive p, .primitive q => pure (p.looseEquals q)
  | .object a, .object b => pure (a == b)
  | .object a, .primitive q =>
      if q.isNullish then pure false
      else do return (← r.toPrimitive .number (.object a)).looseEquals q
  | .primitive p, .object b =>
      if p.isNullish then pure false
      else do return p.looseEquals (← r.toPrimitive .number (.object b))

end Runner

end ScriptTree
