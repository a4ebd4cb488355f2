import ScriptTree.Fault

/-!
# The machine

A machine is everything an evaluation can change: the heap of objects, the scopes, the active calls,
the console and the clock.  `Settings` is what it cannot change.

Both walks of this module follow links: `nearest` from a scope to its parents, `property` from an
object to its prototypes.  A walk that comes to an end meets each entry of the store at most once,
so one that is longer than the store goes in a circle.
-/

namespace ScriptTree

/-! ## Settings -/

/-- What becomes of console output. -/
inductive ConsoleMode where
  | record
  | discard
deriving DecidableEq, Repr

/-- What an embedder fixes for all evaluations of a machine. -/
structure Settings where
  /-- How many calls may be active at once. -/
  maxCallDepth : Nat
  /-- How many milliseconds a program may run; zero means no limit. -/
  timeoutMs : Nat
  console : ConsoleMode
  /-- The milliseconds that have passed when the clock is read for the `n`-th time. -/
  clock : Nat → Nat

namespace Settings

/-- A thousand readings of the clock take a millisecond. -/
def steadyClock (reading : Nat) : Nat := reading / 1000

/-- At most a thousand active calls, no time limit, and console output is kept. -/
def standard : Settings := ⟨1000, 0, .record, steadyClock⟩

end Settings

/-! ## State -/

/-- What a walk along links comes to.  One that goes in a circle has no end. -/
inductive Search (α : Type) where
  | found (a : α)
  | absent
  | endless

/-- A value under a name, and whether the name may be assigned to. -/
structure Binding where
  value : Value
  isMutable : Bool

/-- Bindings, the scope around them, and the value of `this`. -/
structure Scope where
  parent : Option ScopeId
  receiver : Value
  bindings : Table Binding

instance : Inhabited Scope := ⟨⟨none, .undefined, .empty⟩⟩

/-- How often the clock has been read, and which reading started the current program. -/
structure Clock where
  readings : Nat
  start : Option Nat
deriving DecidableEq, Repr

/-- A line of console output. -/
structure Line where
  level : Level
  text : String
deriving DecidableEq, Repr

/-- The whole state of an evaluation. -/
structure Machine where
  objects : Array Object
  scopes : Array Scope
  /-- The active calls, the innermost first. -/
  stack : List Frame
  console : Array Line
  clock : Clock

namespace Machine

/-- A machine with nothing in it. -/
def empty : Machine := ⟨#[], #[], [], #[], ⟨0, none⟩⟩

/-- The object at a place of the heap, an empty one past the end. -/
def object (m : Machine) (o : ObjectId) : Object := m.objects[o.index]?.getD default

/-- The scope at a place, an empty one past the end. -/
def scope (m : Machine) (s : ScopeId) : Scope := m.scopes[s.index]?.getD default

/-- Changes one object. -/
def modifyObject (m : Machine) (o : ObjectId) (f : Object → Object) : Machine :=
  { m with objects := m.objects.modify o.index f }

/-- Changes one scope. -/
def modifyScope (m : Machine) (s : ScopeId) (f : Scope → Scope) : Machine :=
  { m with scopes := m.scopes.modify s.index f }

/-! ## Walks -/

/-- The nearest binding of a name within `bound` scopes, and the scope that has it. -/
def nearestWithin (m : Machine) (name : String) : Nat → ScopeId → Search (ScopeId × Binding)
  | 0, _ => .endless
  | bound + 1, s =>
      match (m.scope s).bindings.get? name with
      | some binding => .found (s, binding)
      | none =>
          match (m.scope s).parent with
          | some parent => nearestWithin m name bound parent
          | none => .absent

/-- The nearest binding of a name, seen from a scope. -/
def nearest (m : Machine) (s : ScopeId) (name : String) : Search (ScopeId × Binding) :=
  m.nearestWithin name (m.scopes.size + 1) s

/-- How many scopes are around a scope, counting at most `bound`. -/
def ancestorsWithin (m : Machine) : Nat → ScopeId → Nat
  | 0, _ => 0
  | bound + 1, s =>
      match (m.scope s).parent with
      | some parent => ancestorsWithin m bound parent + 1
      | none => 0

/-- The first property for a key on `bound` links of the prototype chain. -/
def propertyWithin (m : Machine) (key : String) : Nat → ObjectId → Search Property
  | 0, _ => .endless
  | bound + 1, o =>
      match (m.object o).own? key with
      | some property => .found property
      | none =>
          match (m.object o).prototype with
          | some parent => propertyWithin m key bound parent
          | none => .absent

/-- The first property for a key on the prototype chain of an object. -/
def property (m : Machine) (o : ObjectId) (key : String) : Search Property :=
  m.propertyWithin key (m.objects.size + 1) o

/-! ## Functions and descriptions -/

/-- Whether an object has the shape of a function: its prototype is that of functions. -/
def isFunction (m : Machine) (o : ObjectId) : Bool :=
  (m.object o).prototype = some .functionPrototype

/-- The function a value is, when it has the shape of one. -/
def callable? (m : Machine) : Value → Option Callable
  | .object o => if m.isFunction o then (m.object o).callable? else none
  | _ => none

/-- Whether a value can be called. -/
def isCallable (m : Machine) (v : Value) : Bool := (m.callable? v).isSome

/-- Whether a value can be applied with `new`. -/
def isConstructor (m : Machine) (v : Value) : Bool :=
  match m.callable? v with
  | some callable => callable.isConstructor
  | none => false

/-- A text for a value, made without running any script. -/
def describe (m : Machine) : Value → String
  | .string s => "\"" ++ s ++ "\""
  | .primitive p => p.toText
  | .object o =>
      match (m.object o).kind with
      | .function callable => "function " ++ callable.name?.getD "<anonymous>"
      | .boxed p => "[object " ++ p.className ++ "]"
      | .ordinary | .host _ => "[object Object]"

/-- The answer of the `typeof` operator. -/
def typeOf (m : Machine) : Value → String
  | .undefined => "undefined"
  | .null => "object"
  | .bool _ => "boolean"
  | .number _ => "number"
  | .string _ => "string"
  | .object o => if m.isFunction o then "function" else "object"

end Machine

end ScriptTree
