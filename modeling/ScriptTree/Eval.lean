import ScriptTree.Machine

/-!
# Actions on a machine

An action runs on a machine and ends with a value, with a fault, or because its fuel is used up.
Whichever it is, the machine it leaves is part of the outcome.  Running out of fuel is not a fault:
no action but the embedder can tell it from an evaluation that never ends.  A search along links that
go in a circle never ends, so it is exhausted whatever the fuel.

All changes of a machine go through the few primitive actions of this module.
-/

namespace ScriptTree

/-- How an action ended, and the machine it left. -/
inductive Outcome (α : Type) where
  | value (a : α) (m : Machine)
  | fault (f : Fault) (m : Machine)
  | exhausted (m : Machine)

/-- The machine an action left. -/
def Outcome.machine {α : Type} : Outcome α → Machine
  | .value _ m | .fault _ m | .exhausted m => m

/-- An action on a machine. -/
def Eval (α : Type) : Type := Machine → Outcome α

namespace Eval

variable {α β : Type}

@[always_inline, inline]
protected def pure (a : α) : Eval α := fun m => .value a m

/-- Runs one action, then another with its value. -/
@[always_inline, inline]
protected def bind (x : Eval α) (f : α → Eval β) : Eval β := fun m =>
  match x m with
  | .value a m => f a m
  | .fault e m => .fault e m
  | .exhausted m => .exhausted m

@[always_inline]
instance : Monad Eval where
  pure := Eval.pure
  bind := Eval.bind

instance : LawfulMonad Eval :=
  LawfulMonad.mk' Eval
    (fun x => by
      funext m
      show Eval.bind x (fun a => Eval.pure (id a)) m = x m
      unfold Eval.bind Eval.pure
      cases x m <;> rfl)
    (fun _ _ => rfl)
    (fun x f g => by
      funext m
      show Eval.bind (Eval.bind x f) g m = Eval.bind x (fun a => Eval.bind (f a) g) m
      unfold Eval.bind
      cases x m <;> rfl)

instance : Inhabited (Eval α) := ⟨fun m => .exhausted m⟩

/-! ## Endings -/

/-- Ends with a fault. -/
@[inline] def fail (f : Fault) : Eval α := fun m => .fault f m

/-- Ends because the fuel is used up. -/
@[inline] def exhausted : Eval α := fun m => .exhausted m

/-- Runs an action and hands its fault over as a value. -/
@[inline] def attempt (x : Eval α) : Eval (Except Fault α) := fun m =>
  match x m with
  | .value a m => .value (.ok a) m
  | .fault f m => .value (.error f) m
  | .exhausted m => .exhausted m

/-! ## Looking -/

/-- Reads something off the machine. -/
@[inline] def inspect (f : Machine → α) : Eval α := fun m => .value (f m) m

/-- Searches the machine along its links. -/
@[inline] def search (f : Machine → Search α) : Eval (Option α) := fun m =>
  match f m with
  | .found a => .value (some a) m
  | .absent => .value none m
  | .endless => .exhausted m

def object (o : ObjectId) : Eval Object := inspect (·.object o)

/-- The first property for a key on the prototype chain of an object. -/
def property? (o : ObjectId) (key : String) : Eval (Option Property) := search (·.property o key)

def describe (v : Value) : Eval String := inspect (·.describe v)

def isCallable (v : Value) : Eval Bool := inspect (·.isCallable v)

/-- The value of `this` in a scope. -/
def receiver (s : ScopeId) : Eval Value := inspect fun m => (m.scope s).receiver

/-- The nearest binding of a name, and the scope that has it. -/
def nearest? (s : ScopeId) (name : String) : Eval (Option (ScopeId × Binding)) :=
  search (·.nearest s name)

/-- Whether some scope around `s` binds the name. -/
def isBound (s : ScopeId) (name : String) : Eval Bool := return (← nearest? s name).isSome

/-- The value of a name.  A name without a binding is undefined. -/
def lookup (s : ScopeId) (name : String) : Eval Value := do
  match ← nearest? s name with
  | some (_, binding) => pure binding.value
  | none => pure .undefined

/-- The active calls, the innermost first. -/
def trace : Eval (List Frame) := inspect (·.stack)

/-! ## Objects -/

/-- Puts a new object on the heap. -/
def allocate (o : Object) : Eval ObjectId := fun m =>
  .value ⟨m.objects.size⟩ { m with objects := m.objects.push o }

/-- Writes an entry of the table of an object. -/
def define (o : ObjectId) (key : String) (property : Property) : Eval Unit := fun m =>
  .value () (m.modifyObject o fun object => object.define key property)

/-- Takes an entry of the table of an object away. -/
def erase (o : ObjectId) (key : String) : Eval Unit := fun m =>
  .value () (m.modifyObject o fun object => object.erase key)

/-- Makes an object the box of a primitive. -/
def box (o : ObjectId) (p : Primitive) : Eval Unit := fun m =>
  .value () (m.modifyObject o fun object => { object with kind := .boxed p })

/-! ## Scopes -/

/-- Opens a scope without bindings. -/
def openScope (parent : Option ScopeId) (receiver : Value) : Eval ScopeId := fun m =>
  .value ⟨m.scopes.size⟩ { m with scopes := m.scopes.push ⟨parent, receiver, .empty⟩ }

/-- Opens a scope inside another, with the same `this`. -/
def childScope (s : ScopeId) : Eval ScopeId := do openScope (some s) (← receiver s)

/-- Binds a name in a scope, in place of a binding it has there. -/
def declare (s : ScopeId) (name : String) (value : Value) (isMutable : Bool) : Eval Unit := fun m =>
  .value () (m.modifyScope s fun scope =>
    { scope with bindings := scope.bindings.insert name ⟨value, isMutable⟩ })

/-- Binds a name to undefined unless the scope itself binds it. -/
def declareIfAbsent (s : ScopeId) (name : String) : Eval Unit := fun m =>
  if (m.scope s).bindings.contains name then .value () m
  else declare s name .undefined true m

/-- Writes the nearest binding of a name.  An immutable one is an error when `strict`, and is left
alone otherwise. -/
def writeBinding (strict : Bool) (s : ScopeId) (name : String) (value : Value) :
    Eval Unit := do
  match ← nearest? s name with
  | none => fail (.undeclared name)
  | some (owner, binding) =>
      if binding.isMutable then declare owner name value true
      else if strict then fail .constantAssigned
      else pure ()

/-- Assigns to a name. -/
def assign (s : ScopeId) (name : String) (value : Value) : Eval Unit :=
  writeBinding true s name value

/-- Gives a `var` its initial value.  A name that is constant keeps its own. -/
def assignVar (s : ScopeId) (name : String) (value : Value) : Eval Unit :=
  writeBinding false s name value

/-! ## Calls, console and clock -/

/-- Runs an action inside one more call.  The call ends however the action ends. -/
@[inline] def withFrame (frame : Frame) (x : Eval α) : Eval α := fun m =>
  match x { m with stack := frame :: m.stack } with
  | .value a m => .value a { m with stack := m.stack.tail }
  | .fault f m => .fault f { m with stack := m.stack.tail }
  | .exhausted m => .exhausted { m with stack := m.stack.tail }

/-- Refuses a call when as many are active as may be. -/
def checkDepth (settings : Settings) : Eval Unit := fun m =>
  if settings.maxCallDepth ≤ m.stack.length then .fault .callDepth m else .value () m

/-- Writes a line to the console. -/
def print (settings : Settings) (level : Level) (text : String) : Eval Unit := fun m =>
  match settings.console with
  | .record => .value () { m with console := m.console.push ⟨level, text⟩ }
  | .discard => .value () m

/-- Starts the clock of a program, unless it runs inside a call. -/
def startClock : Eval Unit := fun m =>
  if m.stack.isEmpty then
    .value () { m with clock := { m.clock with start := some m.clock.readings } }
  else .value () m

/-- Reads the clock and ends with a timeout when the program has run too long. -/
def checkTimeout (settings : Settings) : Eval Unit := fun m =>
  match m.clock.start with
  | some start =>
      if settings.timeoutMs = 0 then .value () m
      else
        let now := m.clock.readings + 1
        let elapsed := settings.clock now - settings.clock start
        let m := { m with clock := { m.clock with readings := now } }
        if settings.timeoutMs < elapsed then .fault (.timeout settings.timeoutMs elapsed) m
        else .value () m
  | none => .value () m

/-! ## Faults with a trace -/

/-- Ends with an internal fault and the active calls. -/
def internalFault (message : String) : Eval α := do fail (.internal message (← trace))

/-- Ends because a part of the language is missing. -/
def unsupported (what : String) : Eval α := internalFault ("Unsupported syntax: " ++ what)

/-- Throws a value, with the active calls and a text that runs no script. -/
def throwValue (v : Value) : Eval α := do fail (.thrown v (← describe v) (← trace))

end Eval

end ScriptTree
