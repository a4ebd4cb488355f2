import ScriptTree.Creation
import ScriptTree.Conversion

/-!
# Constructors and membership

`new` makes an object, hands it to the constructor, and takes what the constructor returns when that
is an object.  `instanceof` compares the prototype of an object with the one its constructor gives
out, and looks no further up the chain.
-/

namespace ScriptTree

/-- The object of a value that can be applied with `new`. -/
def Eval.requireConstructor (v : Value) : Eval ObjectId := do
  match v with
  | .object o =>
      if ← inspect (·.isConstructor v) then pure o else fail (.notConstructor (← describe v))
  | .primitive _ => fail (.notConstructor (← describe v))

/-- The constructor that a new object takes its prototype from: `own` unless another is given. -/
def Eval.newTarget (own : ObjectId) : Option Value → Eval ObjectId
  | some target => requireConstructor target
  | none => pure own

namespace Runner

/-- The prototype of what a constructor makes. -/
def prototypeFor (r : Runner) (constructor : ObjectId) : Eval ObjectId := do
  match ← r.readProperty constructor "prototype" (.object constructor) with
  | .object prototype => pure prototype
  | .primitive _ => pure .objectPrototype

/-- Applies a constructor.  The prototype of the new object is read off `newTarget`, which is the
constructor itself unless given. -/
def construct (r : Runner) (constructor : Value) (arguments : List Value)
    (newTarget : Option Value) : Eval ObjectId := do
  let own ← Eval.requireConstructor constructor
  let target ← Eval.newTarget own newTarget
  let prototype ← r.prototypeFor target
  let fresh ← Eval.createFrom prototype
  match ← r.run (.call constructor (.object fresh) arguments (some fresh)) with
  | .object o => pure o
  | .primitive _ => pure fresh

/-- The `instanceof` operator. -/
def isInstanceOf (r : Runner) (v constructor : Value) : Eval Bool := do
  match constructor, ← Eval.isCallable constructor with
  | .object c, true =>
      match v with
      | .primitive _ => pure false
      | .object o =>
          match ← r.readProperty c "prototype" constructor with
          | .object prototype => return (← Eval.object o).prototype = some prototype
          | .primitive _ => Eval.fail .instanceOfNonObject
  | _, _ => Eval.fail .instanceOfNonCallable

/-- The key that the `in` operator looks for. -/
def keyOfIn (r : Runner) (key : Value) : Eval String := do
  match key with
  | .string s => pure s
  | .number _ => r.toKey key
  | _ => Eval.fail (.keyOfIn (← Eval.describe key))

/-- The `in` operator. -/
def isIn (r : Runner) (key target : Value) : Eval Bool := do
  let key ← r.keyOfIn key
  match target with
  | .object o => return (← Eval.property? o key).isSome
  | .primitive _ => Eval.fail (.targetOfIn key (← Eval.describe target))

end Runner

end ScriptTree
