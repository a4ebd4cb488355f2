import ScriptTree.Library.Objects
import ScriptTree.Number.Radix

/-!
# String, Number and Boolean

Each constructor converts its argument; with `new` it boxes the result in the object under
construction.  The methods accept a primitive and its box alike.
-/

namespace ScriptTree

namespace Eval

/-- Boxes a primitive in the object under construction, or answers with it. -/
def boxOrAnswer (p : Primitive) : Option ObjectId → Eval Value
  | some target => do
      box target p
      return .undefined
  | none => return .primitive p

/-- The primitive a value is or boxes. -/
def unboxed? (v : Value) : Eval (Option Primitive) := do
  match v with
  | .primitive p => return some p
  | .object o =>
      match (← object o).kind with
      | .boxed p => return some p
      | _ => return none

/-- Ends because a method was called on a value of another kind. -/
def wrongReceiver {α : Type} (name : String) : Eval α :=
  fail (.typeError (name ++ ".prototype.valueOf requires that 'this' be a " ++ name))

/-- What `pick?` takes from the primitive that a value is or boxes.  `name` is the constructor of the
values that have it. -/
def thisPrimitive {α : Type} (name : String) (pick? : Primitive → Option α) (v : Value) :
    Eval α := do
  match (← unboxed? v).bind pick? with
  | some a => return a
  | none => wrongReceiver name

/-- The text a value is or boxes. -/
def thisText : Value → Eval String :=
  thisPrimitive "String" fun
    | .string s => some s
    | _ => none

/-- The number a value is or boxes. -/
def thisNumber : Value → Eval Float :=
  thisPrimitive "Number" fun
    | .number x => some x
    | _ => none

/-- The boolean a value is or boxes. -/
def thisBool : Value → Eval Bool :=
  thisPrimitive "Boolean" fun
    | .bool b => some b
    | _ => none

end Eval

/-- `Boolean(value)`. -/
def booleanConstructor (arguments : List Value) (target : Option ObjectId) : Eval Value :=
  Eval.boxOrAnswer (.bool (argument arguments 0).truthy) target

namespace Runner

/-- `String(value)`. -/
def stringConstructor (r : Runner) (arguments : List Value) (target : Option ObjectId) :
    Eval Value := do
  let text ← if arguments.isEmpty then pure "" else r.toText (argument arguments 0)
  Eval.boxOrAnswer (.string text) target

/-- `Number(value)`. -/
def numberConstructor (r : Runner) (arguments : List Value) (target : Option ObjectId) :
    Eval Value := do
  let x ← if arguments.isEmpty then pure 0 else r.toNumber (argument arguments 0)
  Eval.boxOrAnswer (.number x) target

/-- The text of a number in a radix that must be between 2 and 36. -/
def radixTextOf (x radix : Float) : Eval Value :=
  if 2 ≤ radix && radix ≤ 36 then
    if radix == 10 || !x.isFinite then return .string (numberText x)
    else return .string (radixText x radix.toUInt32.toNat)
  else Eval.fail (.rangeError "toString() radix must be between 2 and 36")

/-- `number.toString(radix)`. -/
def numberToString (r : Runner) (receiver : Value) (arguments : List Value) : Eval Value := do
  let x ← Eval.thisNumber receiver
  let wanted := argument arguments 0
  if wanted.isUndefined then radixTextOf x 10
  else radixTextOf x (truncate (← r.toNumber wanted))

end Runner

end ScriptTree
