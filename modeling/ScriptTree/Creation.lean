import ScriptTree.Eval

/-!
# Making objects

Plain objects, arrays, functions, boxes and errors.
-/

namespace ScriptTree

namespace Eval

/-- An object without properties that inherits from `prototype`. -/
def createFrom (prototype : ObjectId) : Eval ObjectId := allocate (.ofPrototype (some prototype))

/-- A plain object. -/
def createObject : Eval ObjectId := createFrom .objectPrototype

/-- The entries of an array-like object: one for each value, from `index` on, then the length. -/
def indexedEntries (index : Nat) : List Value → List (String × Property)
  | [] => [("length", .writable (.number (Float.ofNat index)))]
  | v :: rest => (indexText index, .writable v) :: indexedEntries (index + 1) rest

/-- An object with the given values under their indices, and a length. -/
def createIndexed (prototype : ObjectId) (values : List Value) : Eval ObjectId :=
  allocate { Object.ofPrototype (some prototype) with
    properties := .ofList (indexedEntries 0 values) }

/-- An array. -/
def createArray (values : List Value) : Eval ObjectId := createIndexed .arrayPrototype values

/-- A function without a `prototype`. -/
def createFunction (callable : Callable) : Eval ObjectId :=
  allocate
    { prototype := some .functionPrototype
      properties := .ofList [("name", .readOnly (.string (callable.name?.getD "")))]
      kind := .function callable }

/-- Joins a function and a prototype for what it constructs. -/
def joinPrototype (function prototype : ObjectId) : Eval Unit := do
  define prototype "constructor" (.writable (.object function))
  define function "prototype" (.writable (.object prototype))

/-- A function with a fresh `prototype`. -/
def createConstructor (callable : Callable) : Eval ObjectId := do
  let function ← createFunction callable
  joinPrototype function (← createObject)
  return function

/-- The box of a primitive.  Null and undefined have none. -/
def toObject (v : Value) : Eval ObjectId :=
  match v with
  | .object o => pure o
  | .primitive .undefined | .primitive .null => fail .nullishToObject
  | .primitive (.bool b) => boxOf .booleanPrototype (.bool b)
  | .primitive (.number x) => boxOf .numberPrototype (.number x)
  | .primitive (.string s) => boxOf .stringPrototype (.string s)
where
  /-- A fresh box. -/
  boxOf (prototype : ObjectId) (p : Primitive) : Eval ObjectId :=
    allocate { Object.ofPrototype (some prototype) with kind := .boxed p }

/-- An error with a message and the active calls. -/
def createError (kind : ErrorKind) (message : String) : Eval ObjectId := do
  let stack := kind.name ++ ": " ++ message ++ Frame.traceText (← trace)
  allocate { Object.ofPrototype (some kind.prototype) with
    properties := .ofList
      [("message", .writable (.string message)), ("stack", .writable (.string stack))] }

/-- The value a catch clause binds for a fault.  A fault that cannot be caught has none. -/
def faultValue : Fault → Eval (Option Value)
  | .thrown value .. => pure (some value)
  | .typeError message => return some (.object (← createError .typeError message))
  | .referenceError message => return some (.object (← createError .referenceError message))
  | .rangeError message => return some (.object (← createError .rangeError message))
  | .internal .. | .timeout .. | .invalidTree => pure none

end Eval

end ScriptTree
