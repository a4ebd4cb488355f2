import ScriptTree.Expression.Arguments
import ScriptTree.Expression.Naming
import ScriptTree.Operator

/-!
# Assignments

Operators that need a place and not only a value: assignments, updates and `delete`.  The object and
the key of a member access are evaluated once and before anything else.
-/

namespace ScriptTree

/-- What an update adds. -/
def UpdateOp.delta : UpdateOp → Float
  | .increment => 1
  | .decrement => -1

/-- Whether a logical assignment leaves its target as it is. -/
def AssignOp.skips (op : AssignOp) (current : Value) : Bool :=
  match op with
  | .logical .and => !current.truthy
  | .logical .or => current.truthy
  | .logical .nullish => !current.isNullish
  | _ => false

namespace Runner

/-- The `delete` operator.  A variable stays; anything but a member access is evaluated only. -/
def evalDelete (r : Runner) (s : ScopeId) (e : Expr) : Eval Value := do
  match e with
  | .access object property computed =>
      let object ← r.eval s object
      let key ← r.accessKey s property computed
      return .bool (← Eval.deleteProperty object key)
  | .ident _ => return .bool false
  | e =>
      let _ ← r.eval s e
      return .bool true

/-- Updates a variable or a property by one. -/
def evalUpdate (r : Runner) (s : ScopeId) (op : UpdateOp) (givesNew : Bool) (e : Expr) :
    Eval Value := do
  match e with
  | .ident name =>
      let old ← r.toNumber (← Eval.lookup s name)
      let new := old + op.delta
      Eval.assign s name (.number new)
      return .number (if givesNew then new else old)
  | .access object property computed =>
      let object ← r.eval s object
      let key ← r.accessKey s property computed
      let old ← r.toNumber (← r.getProperty object key)
      let new := old + op.delta
      r.setProperty object key (.number new)
      return .number (if givesNew then new else old)
  | _ => Eval.unsupported "update target"

/-- Assigns to a variable.  A function without a name takes the variable's, except after a binary
operator. -/
def assignName (r : Runner) (s : ScopeId) (op : AssignOp) (name : String) (e : Expr) :
    Eval Value := do
  match op with
  | .assign =>
      let value ← r.evalNamed s name e
      Eval.assign s name value
      return value
  | op =>
      let current ← Eval.lookup s name
      match op.binary? with
      | some binary =>
          let value ← r.applyBinary binary current (← r.eval s e)
          Eval.assign s name value
          return value
      | none =>
          if op.skips current then return current
          else
            let value ← r.evalNamed s name e
            Eval.assign s name value
            return value

/-- Assigns to a property. -/
def assignAccess (r : Runner) (s : ScopeId) (op : AssignOp) (object : Value) (key : String)
    (e : Expr) : Eval Value := do
  match op with
  | .assign =>
      let value ← r.eval s e
      r.setProperty object key value
      return value
  | op =>
      let current ← r.getProperty object key
      match op.binary? with
      | some binary =>
          let value ← r.applyBinary binary current (← r.eval s e)
          r.setProperty object key value
          return value
      | none =>
          if op.skips current then return current
          else
            let value ← r.eval s e
            r.setProperty object key value
            return value

/-- An assignment.  The place is evaluated before the value. -/
def evalAssign (r : Runner) (s : ScopeId) (op : AssignOp) (target : Target) (e : Expr) :
    Eval Value := do
  match target with
  | .ident name => r.assignName s op name e
  | .access object property computed =>
      let object ← r.eval s object
      let key ← r.accessKey s property computed
      r.assignAccess s op object key e
  | .unsupported => Eval.unsupported "destructuring assignment"

end Runner

end ScriptTree
