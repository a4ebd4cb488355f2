import ScriptTree.Creation
import ScriptTree.Runner

/-!
# Function values and their names

A function expression makes a function over the scope it stands in.  A function without a name takes
that of the variable, parameter or property it is given to.
-/

namespace ScriptTree

namespace Eval

/-- A function over a scope.  It takes the given name, or else the one it is written with. -/
def instantiate (s : ScopeId) (code : FunctionCode) (isArrow : Bool) (name : Option String) :
    Eval Value := do
  if code.generator then unsupported "generator function"
  else if code.isAsync then unsupported "async function"
  else
    let callable := .closure ⟨name.or code.name, code, s, isArrow⟩
    return .object (← if isArrow then createFunction callable else createConstructor callable)

/-- A function expression.  One with a name sees itself under that name. -/
def functionExpression (s : ScopeId) (code : FunctionCode) : Eval Value := do
  match code.name with
  | none => instantiate s code false none
  | some name =>
      let inner ← childScope s
      let function ← instantiate inner code false none
      declare inner name function true
      return function

end Eval

/-- Evaluates an expression that a name is given to.  A function without a name takes it. -/
def Runner.evalNamed (r : Runner) (s : ScopeId) (name : String) (e : Expr) : Eval Value :=
  match e with
  | .function code =>
      if code.name.isNone then Eval.instantiate s code false (some name) else r.eval s e
  | .arrow code => Eval.instantiate s code true (some name)
  | _ => r.eval s e

end ScriptTree
