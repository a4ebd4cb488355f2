import ScriptTree.Number.Numeral
import ScriptTree.Number.Text
import ScriptTree.Text

/-!
# Values

A value is a primitive or a reference to an object of the heap.  This module has what can be said of
a value without looking at the heap: truth, strict equality, and the number and text of a primitive.
-/

namespace ScriptTree

/-- The place of an object in the heap. -/
structure ObjectId where
  index : Nat
deriving DecidableEq, Repr, Inhabited

/-- The place of a scope among the scopes. -/
structure ScopeId where
  index : Nat
deriving DecidableEq, Repr, Inhabited

/-- A value without identity. -/
inductive Primitive where
  | undefined
  | null
  | bool (b : Bool)
  | number (x : Float)
  | string (s : String)

/-- What expressions evaluate to. -/
inductive Value where
  | primitive (p : Primitive)
  | object (o : ObjectId)

namespace Value

@[match_pattern] abbrev undefined : Value := .primitive .undefined
@[match_pattern] abbrev null : Value := .primitive .null
@[match_pattern] abbrev bool (b : Bool) : Value := .primitive (.bool b)
@[match_pattern] abbrev number (x : Float) : Value := .primitive (.number x)
@[match_pattern] abbrev string (s : String) : Value := .primitive (.string s)

instance : Inhabited Value := ⟨undefined⟩

/-- Whether the value is null or undefined. -/
def isNullish : Value → Bool
  | .undefined | .null => true
  | _ => false

/-- Whether the value is undefined. -/
def isUndefined : Value → Bool
  | .undefined => true
  | _ => false

/-- What the value counts as in a condition. -/
def truthy : Value → Bool
  | .undefined | .null => false
  | .bool b => b
  | .number x => !(x == 0) && !x.isNaN
  | .string s => !s.isEmpty
  | .object _ => true

end Value

namespace Primitive

/-- Strict equality of primitives.  NaN differs from itself and the two zeros are equal. -/
def strictEquals : Primitive → Primitive → Bool
  | .undefined, .undefined => true
  | .null, .null => true
  | .bool a, .bool b => a == b
  | .number a, .number b => a == b
  | .string a, .string b => a == b
  | _, _ => false

/-- One for true, zero for false. -/
def boolNumber (b : Bool) : Float := if b then 1 else 0

/-- The number a primitive converts to. -/
def toNumber : Primitive → Float
  | .undefined => notANumber
  | .null => 0
  | .bool b => boolNumber b
  | .number x => x
  | .string s => textNumber s

/-- The text a primitive converts to. -/
def toText : Primitive → String
  | .undefined => "undefined"
  | .null => "null"
  | .bool b => if b then "true" else "false"
  | .number x => numberText x
  | .string s => s

/-- The name of the constructor that boxes a primitive of this kind. -/
def className : Primitive → String
  | .undefined => "Undefined"
  | .null => "Null"
  | .bool _ => "Boolean"
  | .number _ => "Number"
  | .string _ => "String"

end Primitive

/-- Strict equality: primitives by value, objects by identity. -/
def Value.strictEquals : Value → Value → Bool
  | .primitive p, .primitive q => p.strictEquals q
  | .object a, .object b => a == b
  | _, _ => false

end ScriptTree
