import ScriptTree.Conversion
import ScriptTree.Expression.Naming

/-!
# Object literals

Members are added one after the other.  A getter and a setter for one key join, any other second
member for a key replaces the first, and a spread copies values.
-/

namespace ScriptTree

namespace Eval

/-- Defines values under their indices, from `index` on. -/
def defineIndexed (target : ObjectId) (index : Nat) : List Value → Eval Unit
  | [] => pure ()
  | v :: rest => do
      define target (indexText index) (.writable v)
      defineIndexed target (index + 1) rest

/-- Adds a getter or a setter to a key, beside the other one when the key has it. -/
def defineAccessor (target : ObjectId) (key : String) (isGetter : Bool) (function : Value) :
    Eval Unit := do
  let (getter, setter) :=
    match (← object target).own? key with
    | some (.accessor getter setter) => (getter, setter)
    | _ => (.undefined, .undefined)
  define target key (if isGetter then .accessor function setter else .accessor getter function)

end Eval

namespace Runner

/-- Defines the entries of a table as values of `target`.  Getters run. -/
def copyEntries (r : Runner) (source target : ObjectId) : List (String × Property) → Eval Unit
  | [] => pure ()
  | (key, property) :: rest => do
      let value ←
        match property with
        | .data value _ => pure value
        | .accessor .. => r.readProperty source key (.object source)
      Eval.define target key (.writable value)
      r.copyEntries source target rest

/-- Copies the own properties of a value.  Only objects and texts have any. -/
def copyProperties (r : Runner) (source : Value) (target : ObjectId) : Eval Unit := do
  match source with
  | .object o => r.copyEntries o target (← Eval.object o).properties.entries
  | .string _ => Eval.defineIndexed target 0 (← r.arrayLike source)
  | _ => pure ()

/-- The key of a member of an object literal. -/
def memberKey (r : Runner) (s : ScopeId) (key : Expr) (computed : Bool) : Eval String := do
  if computed then r.toKey (← r.eval s key)
  else
    match key with
    | .ident name => pure name
    | .literal l =>
        match l.value with
        | .string text => pure text
        | .number x => pure (numberText x)
        | _ => Eval.unsupported "object literal key"
    | _ => Eval.unsupported "object literal key"

/-- Adds one member of an object literal. -/
def defineMember (r : Runner) (s : ScopeId) (target : ObjectId) : Member → Eval Unit
  | .spread source => do r.copyProperties (← r.eval s source) target
  | .unsupported => Eval.unsupported "object literal member"
  | .property key value kind computed _ _ => do
      let key ← r.memberKey s key computed
      match kind with
      | .init => Eval.define target key (.writable (← r.evalNamed s key value))
      | .getter => Eval.defineAccessor target key true (← r.eval s value)
      | .setter => Eval.defineAccessor target key false (← r.eval s value)

/-- Adds the members of an object literal. -/
def defineMembers (r : Runner) (s : ScopeId) (target : ObjectId) : List Member → Eval Unit
  | [] => pure ()
  | member :: rest => do
      r.defineMember s target member
      r.defineMembers s target rest

end Runner

end ScriptTree
