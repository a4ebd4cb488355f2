import ScriptTree.Table
import ScriptTree.Tree
import ScriptTree.Value

/-!
# Objects

An object has a prototype, a table of properties and a kind.  The kind decides what else it does: a
function can be called, a boxed primitive shows the properties of its primitive, and a host object
answers for some keys by itself.

Functions of the embedder are restricted.  An embedder's function could do anything to the machine;
here it answers with a primitive, with its receiver, with one of its arguments or with a type error,
and does nothing else (`HostAnswer`).  It makes no objects, calls no functions and raises no other
fault, so what is said of all calls is said of functions of the embedder of this sort only.
-/

namespace ScriptTree

/-! ## Properties -/

/-- A property is a value or a pair of functions.  An undefined getter or setter is absent. -/
inductive Property where
  | data (value : Value) (writable : Bool)
  | accessor (getter setter : Value)

namespace Property

/-- A value that scripts may overwrite. -/
abbrev writable (value : Value) : Property := .data value true

/-- A value that scripts cannot overwrite. -/
abbrev readOnly (value : Value) : Property := .data value false

end Property

/-- The properties every text has: its length and its code units. -/
def textProperty? (s : String) (key : String) : Option Property :=
  if key = "length" then some (.readOnly (.number (Float.ofNat (unitLength s))))
  else do
    let index ← arrayIndex? key
    let unit ← unitAt? s index
    return .readOnly (.string unit)

/-! ## Functions -/

/-- The families of error objects. -/
inductive ErrorKind where
  | error
  | typeError
  | referenceError
  | rangeError
deriving DecidableEq, Repr

/-- The name of the constructor of a family. -/
def ErrorKind.name : ErrorKind → String
  | .error => "Error"
  | .typeError => "TypeError"
  | .referenceError => "ReferenceError"
  | .rangeError => "RangeError"

/-- The levels of console output. -/
inductive Level where
  | log
  | info
  | debug
  | warn
  | error
deriving DecidableEq, Repr

/-- The name of the console method for a level. -/
def Level.name : Level → String
  | .log => "log"
  | .info => "info"
  | .debug => "debug"
  | .warn => "warn"
  | .error => "error"

/-- The functions of the standard library. -/
inductive Builtin where
  | objectConstructor
  | hasOwnProperty
  | objectToString
  | objectValueOf
  | objectCreate
  | getPrototypeOf
  | defineProperty
  | functionConstructor
  | functionCall
  | functionApply
  | arrayConstructor
  | stringConstructor
  | stringToString
  | stringValueOf
  | numberConstructor
  | numberToString
  | numberValueOf
  | booleanConstructor
  | booleanToString
  | booleanValueOf
  | symbolConstructor
  | errorConstructor (kind : ErrorKind)
  | errorToString
  | print (level : Level)
deriving DecidableEq, Repr

namespace Builtin

/-- The name a function of the library carries. -/
def name : Builtin → String
  | .objectConstructor => "Object"
  | .hasOwnProperty => "hasOwnProperty"
  | .objectToString => "toString"
  | .objectValueOf => "valueOf"
  | .objectCreate => "create"
  | .getPrototypeOf => "getPrototypeOf"
  | .defineProperty => "defineProperty"
  | .functionConstructor => "Function"
  | .functionCall => "call"
  | .functionApply => "apply"
  | .arrayConstructor => "Array"
  | .stringConstructor => "String"
  | .stringToString => "toString"
  | .stringValueOf => "valueOf"
  | .numberConstructor => "Number"
  | .numberToString => "toString"
  | .numberValueOf => "valueOf"
  | .booleanConstructor => "Boolean"
  | .booleanToString => "toString"
  | .booleanValueOf => "valueOf"
  | .symbolConstructor => "Symbol"
  | .errorConstructor kind => kind.name
  | .errorToString => "toString"
  | .print level => level.name

/-- Whether the function can be applied with `new`. -/
def isConstructor : Builtin → Bool
  | .objectConstructor | .functionConstructor | .arrayConstructor | .stringConstructor
  | .numberConstructor | .booleanConstructor | .symbolConstructor | .errorConstructor _ => true
  | _ => false

end Builtin

/-- What a function of the embedder is called with. -/
structure HostCall where
  receiver : Value
  arguments : List Value
  /-- Whether an object is under construction. -/
  constructing : Bool
  /-- The number of active calls, this one included. -/
  depth : Nat

/-- What a function of the embedder answers: a primitive, one of the values it was called with, or a
type error.  It cannot make objects of its own. -/
inductive HostAnswer where
  | primitive (p : Primitive)
  | receiver
  /-- The argument at a position, undefined past the end. -/
  | argument (index : Nat)
  | typeError (message : String)

/-- A function of the embedder. -/
structure HostFunction where
  name : String
  isConstructor : Bool
  answer : HostCall → HostAnswer

/-- A function of a script together with the scope it was made in. -/
structure Closure where
  name : Option String
  code : FunctionCode
  scope : ScopeId
  /-- An arrow function takes `this` from its scope. -/
  isArrow : Bool

/-- What can be called. -/
inductive Callable where
  | closure (closure : Closure)
  | builtin (builtin : Builtin)
  | host (function : HostFunction)

namespace Callable

/-- The name a function carries, if it has one. -/
def name? : Callable → Option String
  | .closure c => c.name
  | .builtin b => some b.name
  | .host f => some f.name

/-- Whether the function can be applied with `new`. -/
def isConstructor : Callable → Bool
  | .closure c => !c.isArrow
  | .builtin b => b.isConstructor
  | .host f => f.isConstructor

/-- Where the function was written. -/
def position? : Callable → Option Position
  | .closure c => c.code.span.map Span.start
  | _ => none

end Callable

/-! ## Kinds -/

/-- An object of the embedder, which answers for its own keys. -/
structure HostTable where
  /-- The text that diagnostics show for it. -/
  label : String
  property? : String → Option Property

/-- What an object is beside its table. -/
inductive ObjectKind where
  | ordinary
  | function (callable : Callable)
  | boxed (p : Primitive)
  | host (table : HostTable)

/-- The properties an object has by its kind alone. -/
def ObjectKind.property? : ObjectKind → String → Option Property
  | .boxed (.string s), key => textProperty? s key
  | .host table, key => table.property? key
  | _, _ => none

/-- An object of the heap. -/
structure Object where
  prototype : Option ObjectId
  properties : Table Property
  kind : ObjectKind

namespace Object

/-- An object without properties. -/
def ofPrototype (prototype : Option ObjectId) : Object := ⟨prototype, .empty, .ordinary⟩

instance : Inhabited Object := ⟨ofPrototype none⟩

/-- The function an object is. -/
def callable? (o : Object) : Option Callable :=
  match o.kind with
  | .function callable => some callable
  | _ => none

/-- An own property: what the kind answers comes before the table. -/
def own? (o : Object) (key : String) : Option Property :=
  match o.kind.property? key with
  | some property => some property
  | none => o.properties.get? key

/-- Writes an entry of the table. -/
def define (o : Object) (key : String) (property : Property) : Object :=
  { o with properties := o.properties.insert key property }

/-- Takes an entry of the table away. -/
def erase (o : Object) (key : String) : Object := { o with properties := o.properties.erase key }

end Object

/-! ## The objects every machine has -/

namespace ObjectId

def objectPrototype : ObjectId := ⟨0⟩
def errorPrototype : ObjectId := ⟨1⟩
def functionPrototype : ObjectId := ⟨2⟩
def arrayPrototype : ObjectId := ⟨3⟩
def stringPrototype : ObjectId := ⟨4⟩
def numberPrototype : ObjectId := ⟨5⟩
def booleanPrototype : ObjectId := ⟨6⟩
def typeErrorPrototype : ObjectId := ⟨7⟩
def referenceErrorPrototype : ObjectId := ⟨8⟩
def rangeErrorPrototype : ObjectId := ⟨9⟩

end ObjectId

/-- The prototype of a family of errors. -/
def ErrorKind.prototype : ErrorKind → ObjectId
  | .error => .errorPrototype
  | .typeError => .typeErrorPrototype
  | .referenceError => .referenceErrorPrototype
  | .rangeError => .rangeErrorPrototype

end ScriptTree
