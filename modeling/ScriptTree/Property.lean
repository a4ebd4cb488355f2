import ScriptTree.Runner

/-!
# Reading and writing properties

A read takes the first property on the prototype chain and a write goes to the object itself, unless
a setter or a read-only value stands in its way.  Primitives have the properties of the prototype
that belongs to them.
-/

namespace ScriptTree

/-- The prototype on which a primitive finds its properties.  Null and undefined have none. -/
def Primitive.prototype? : Primitive → Option ObjectId
  | .undefined | .null => none
  | .bool _ => some .booleanPrototype
  | .number _ => some .numberPrototype
  | .string _ => some .stringPrototype

/-- The properties a primitive has by itself. -/
def Primitive.property? : Primitive → String → Option Property
  | .string s, key => textProperty? s key
  | _, _ => none

namespace Runner

/-- The value of a property.  A getter runs with `receiver` as `this`. -/
def valueOf (r : Runner) (receiver : Value) : Option Property → Eval Value
  | none => pure .undefined
  | some (.data value _) => pure value
  | some (.accessor getter _) =>
      if getter.isUndefined then pure .undefined else r.call getter receiver []

/-- Reads a property of an object. -/
def readProperty (r : Runner) (o : ObjectId) (key : String) (receiver : Value) : Eval Value := do
  r.valueOf receiver (← Eval.property? o key)

/-- Writes a property of an object: by the setter when there is one, and otherwise as an own value.
Read-only values and accessors without a setter ignore the write. -/
def assignProperty (r : Runner) (o : ObjectId) (key : String) (value receiver : Value) :
    Eval Unit := do
  match ← Eval.property? o key with
  | some (.accessor _ setter) =>
      if setter.isUndefined then pure ()
      else do
        let _ ← r.call setter receiver [value]
        pure ()
  | some (.data _ false) => pure ()
  | _ => Eval.define o key (.writable value)

/-- Reads a property of any value. -/
def getProperty (r : Runner) (v : Value) (key : String) : Eval Value := do
  match v with
  | .object o => r.readProperty o key v
  | .primitive p =>
      match p.prototype? with
      | none => Eval.fail (.readOfNullish (← Eval.describe v) key)
      | some prototype =>
          match p.property? key with
          | some property => r.valueOf v (some property)
          | none => r.readProperty prototype key v

/-- Writes a property of any value.  Primitives ignore the write. -/
def setProperty (r : Runner) (v : Value) (key : String) (value : Value) : Eval Unit := do
  match v with
  | .object o => r.assignProperty o key value v
  | .primitive _ =>
      if v.isNullish then Eval.fail (.writeOfNullish (← Eval.describe v) key) else pure ()

end Runner

/-- Takes an own entry away, unless it is a read-only value, and says whether it is gone. -/
def Eval.deleteProperty (v : Value) (key : String) : Eval Bool := do
  match v with
  | .object o =>
      match (← Eval.object o).properties.get? key with
      | some (.data _ false) => pure false
      | _ => do
          Eval.erase o key
          pure true
  | .primitive _ =>
      if v.isNullish then Eval.fail (.deleteOfNullish (← Eval.describe v)) else pure true

end ScriptTree
