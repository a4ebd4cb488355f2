import ScriptTree.Construction

/-!
# Object and Function

The functions behind `Object`, `Object.prototype` and `Function.prototype`.
-/

namespace ScriptTree

/-- The argument at a position, undefined when it is missing. -/
def argument (arguments : List Value) (index : Nat) : Value := arguments[index]?.getD .undefined

/-! ## Object -/

/-- `Object(value)`.  Without a value it makes an object, unless one is under construction. -/
def objectConstructor (arguments : List Value) (target : Option ObjectId) : Eval Value := do
  let value := argument arguments 0
  if value.isNullish then
    if target.isSome then return .undefined else return .object (← Eval.createObject)
  else return .object (← Eval.toObject value)

/-- The name that `Object.prototype.toString` shows for a value. -/
def Machine.tag (m : Machine) : Value → String
  | .primitive p => p.className
  | .object o =>
      if m.isFunction o then "Function"
      else if (m.object o).prototype = some .arrayPrototype then "Array"
      else if (m.object o).prototype = some .errorPrototype then "Error"
      else "Object"

/-- `Object.prototype.toString`: the kind of the receiver in brackets. -/
def objectToString (receiver : Value) : Eval Value := do
  return .string ("[object " ++ (← Eval.inspect (·.tag receiver)) ++ "]")

/-- `Object.prototype.valueOf`: the receiver as an object. -/
def objectValueOf (receiver : Value) : Eval Value := do
  return .object (← Eval.toObject receiver)

/-- `Object.create(prototype)`. -/
def objectCreate (arguments : List Value) : Eval Value := do
  match argument arguments 0 with
  | .null => return .object (← Eval.allocate (.ofPrototype none))
  | .object prototype => return .object (← Eval.createFrom prototype)
  | other =>
      Eval.fail (.typeError
        ("Object prototype may only be an Object or null: " ++ (← Eval.describe other)))

/-- `Object.getPrototypeOf(value)`. -/
def getPrototypeOf (arguments : List Value) : Eval Value := do
  let o ← Eval.toObject (argument arguments 0)
  match (← Eval.object o).prototype with
  | some prototype => return .object prototype
  | none => return .null

namespace Runner

/-- `Object.prototype.hasOwnProperty`.  The key is converted before the receiver is looked at. -/
def hasOwnProperty (r : Runner) (receiver : Value) (arguments : List Value) : Eval Value := do
  let key ← r.toKey (argument arguments 0)
  match receiver with
  | .object o => return .bool ((← Eval.object o).own? key).isSome
  | .primitive p =>
      if p.prototype?.isNone then Eval.fail .nullishToObject
      else return .bool (p.property? key).isSome

/-- Accepts undefined and functions as the getter or setter of a property. -/
def requireAccessor (role : String) (v : Value) : Eval Unit := do
  if v.isUndefined || (← Eval.isCallable v) then pure ()
  else Eval.fail (.typeError (role ++ " must be a function: " ++ (← Eval.describe v)))

/-- The property an attributes object describes.  One with `get` or `set` is an accessor; the value
of any other is read-only unless `writable` says otherwise. -/
def describedProperty (r : Runner) (attributes : ObjectId) : Eval Property := do
  let has := fun key => return (← Eval.property? attributes key).isSome
  let read := fun key => r.readProperty attributes key (.object attributes)
  if (← has "get") || (← has "set") then
    if (← has "value") || (← has "writable") then
      Eval.fail (.typeError ("Invalid property descriptor. Cannot both specify accessors and a "
        ++ "value or writable attribute"))
    else
      let getter ← read "get"
      let setter ← read "set"
      requireAccessor "Getter" getter
      requireAccessor "Setter" setter
      return .accessor getter setter
  else
    let value ← read "value"
    return .data value (← read "writable").truthy

/-- `Object.defineProperty(object, key, attributes)`. -/
def defineProperty (r : Runner) (arguments : List Value) : Eval Value := do
  match argument arguments 0 with
  | .primitive _ => Eval.fail (.typeError "Object.defineProperty called on non-object")
  | .object o =>
      let key ← r.toKey (argument arguments 1)
      match argument arguments 2 with
      | .primitive p =>
          Eval.fail (.typeError
            ("Property description must be an object: " ++ (← Eval.describe (.primitive p))))
      | .object attributes =>
          Eval.define o key (← r.describedProperty attributes)
          return .object o

/-! ## Function -/

/-- `function.call(this, ...arguments)`. -/
def functionCall (r : Runner) (receiver : Value) (arguments : List Value) : Eval Value :=
  r.call receiver (argument arguments 0) (arguments.drop 1)

/-- `function.apply(this, list)`. -/
def functionApply (r : Runner) (receiver : Value) (arguments : List Value) : Eval Value := do
  let list := argument arguments 1
  let values ←
    match list with
    | .object _ => r.arrayLike list
    | .primitive _ =>
        if list.isNullish then pure []
        else Eval.fail (.typeError "CreateListFromArrayLike called on non-object")
  r.call receiver (argument arguments 0) values

end Runner

end ScriptTree
