import ScriptTree.Creation

/-!
# What every machine starts with

Ten prototypes, the functions of the standard library, and the names they are bound to.
-/

namespace ScriptTree

namespace Realm

/-- The prototypes, each at the place its identifier names. -/
def prototypes : Array Object :=
  #[.ofPrototype none, .ofPrototype (some .objectPrototype), .ofPrototype (some .objectPrototype),
    .ofPrototype (some .objectPrototype), .ofPrototype (some .objectPrototype),
    .ofPrototype (some .objectPrototype), .ofPrototype (some .objectPrototype),
    .ofPrototype (some .errorPrototype), .ofPrototype (some .errorPrototype),
    .ofPrototype (some .errorPrototype)]

/-- Adds functions of the library to an object, each under its name. -/
def addMethods (o : ObjectId) : List Builtin → Eval Unit
  | [] => pure ()
  | builtin :: rest => do
      let function ← Eval.createFunction (.builtin builtin)
      Eval.define o builtin.name (.writable (.object function))
      addMethods o rest

/-- Makes a constructor for the objects that inherit from `prototype`. -/
def addConstructor (builtin : Builtin) (prototype : ObjectId) : Eval ObjectId := do
  let function ← Eval.createFunction (.builtin builtin)
  Eval.joinPrototype function prototype
  return function

/-- Makes the constructor of a family of errors. -/
def addError (kind : ErrorKind) : Eval ObjectId := do
  Eval.define kind.prototype "name" (.writable (.string kind.name))
  Eval.define kind.prototype "message" (.writable (.string ""))
  addConstructor (.errorConstructor kind) kind.prototype

/-- A name of the library that scripts may assign to. -/
def variableEntry (builtin : Builtin) (o : ObjectId) : String × Binding :=
  (builtin.name, ⟨.object o, true⟩)

/-- A name of the library that scripts cannot assign to. -/
def constantEntry (name : String) (value : Value) : String × Binding := (name, ⟨value, false⟩)

/-- Fills the prototypes, makes the library, and gives the names it is bound to, in order. -/
def install : Eval (List (String × Binding)) := do
  addMethods .objectPrototype [.hasOwnProperty, .objectToString, .objectValueOf]
  let object ← addConstructor .objectConstructor .objectPrototype
  addMethods object [.objectCreate, .getPrototypeOf, .defineProperty]
  addMethods .functionPrototype [.functionCall, .functionApply]
  let function ← addConstructor .functionConstructor .functionPrototype
  let array ← addConstructor .arrayConstructor .arrayPrototype
  addMethods .stringPrototype [.stringToString, .stringValueOf]
  let string ← addConstructor .stringConstructor .stringPrototype
  addMethods .numberPrototype [.numberToString, .numberValueOf]
  let number ← addConstructor .numberConstructor .numberPrototype
  addMethods .booleanPrototype [.booleanToString, .booleanValueOf]
  let boolean ← addConstructor .booleanConstructor .booleanPrototype
  let symbol ← Eval.createFunction (.builtin .symbolConstructor)
  addMethods .errorPrototype [.errorToString]
  let error ← addError .error
  let typeError ← addError .typeError
  let referenceError ← addError .referenceError
  let rangeError ← addError .rangeError
  let log ← Eval.createFunction (.builtin (.print .log))
  let console ← Eval.createObject
  addMethods console
    [.print .log, .print .info, .print .debug, .print .warn, .print .error]
  return [
    variableEntry .objectConstructor object,
    variableEntry .functionConstructor function,
    variableEntry .arrayConstructor array,
    variableEntry .stringConstructor string,
    variableEntry .numberConstructor number,
    variableEntry .booleanConstructor boolean,
    variableEntry .symbolConstructor symbol,
    variableEntry (.errorConstructor .error) error,
    variableEntry (.errorConstructor .typeError) typeError,
    variableEntry (.errorConstructor .referenceError) referenceError,
    variableEntry (.errorConstructor .rangeError) rangeError,
    variableEntry (.print .log) log,
    ("console", ⟨.object console, true⟩),
    constantEntry "undefined" .undefined,
    constantEntry "NaN" (.number notANumber),
    constantEntry "Infinity" (.number (1 / 0))]

/-- The outcome of installing the library on a machine that has the prototypes only. -/
def installed : Outcome (List (String × Binding)) :=
  install { Machine.empty with objects := prototypes }

/-- The machine every session starts from.  It has no scope yet. -/
def machine : Machine := installed.machine

/-- The names of the library and their bindings, in order. -/
def globals : List (String × Binding) :=
  match installed with
  | .value globals _ => globals
  | _ => []

end Realm

/-- What an embedder adds to the global scope. -/
structure GlobalSetup where
  /-- The value of `this` outside functions. -/
  receiver : Value
  /-- Further names.  A later one replaces an earlier one and the library's. -/
  extras : List (String × Value)

/-- Opens the global scope: the names of the library, then those of the embedder. -/
def Eval.openGlobal (setup : GlobalSetup) : Eval ScopeId := fun m =>
  let extras := setup.extras.map fun entry => (entry.1, (⟨entry.2, true⟩ : Binding))
  .value ⟨m.scopes.size⟩
    { m with
      scopes := m.scopes.push ⟨none, setup.receiver, .ofList (Realm.globals ++ extras)⟩ }

end ScriptTree
