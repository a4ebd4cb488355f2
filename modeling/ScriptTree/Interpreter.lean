import ScriptTree.Activation
import ScriptTree.Expression
import ScriptTree.Library
import ScriptTree.Tree.Reader

/-!
# The interpreter

`run` ties the rules together.  Fuel bounds how deeply tasks nest and how often each loop turns; an
evaluation that finishes with some fuel finishes in the same way with more.
-/

namespace ScriptTree

namespace Runner

/-- The function behind a callee. -/
def resolve (callee : Value) : Eval Callable := do
  match ← Eval.inspect (·.callable? callee) with
  | some callable => pure callable
  | none =>
      match callee with
      | .object _ => Eval.fail (.notFunction (← Eval.describe callee))
      | .primitive _ => Eval.fail (.notCallable (← Eval.describe callee))

/-- Runs a function once its call is allowed. -/
def enter (r : Runner) (callable : Callable) (receiver : Value) (arguments : List Value)
    (target : Option ObjectId) : Eval Value :=
  match callable with
  | .closure c => r.invoke c receiver arguments
  | .builtin b => r.runBuiltin b receiver arguments target
  | .host f => do
      f.run ⟨receiver, arguments, target.isSome, (← Eval.trace).length⟩

/-- Allows a call: the callee must be a function, be a constructor when an object is under
construction, and keep the limits on time and depth. -/
def allow (r : Runner) (callee : Value) (target : Option ObjectId) : Eval Callable := do
  let callable ← resolve callee
  if target.isSome && !callable.isConstructor then
    Eval.fail (.notConstructor (← Eval.describe callee))
  else
    Eval.checkTimeout r.settings
    Eval.checkDepth r.settings
    return callable

/-- Calls a function, once the call is allowed, with a frame of its own. -/
def apply (r : Runner) (callee receiver : Value) (arguments : List Value)
    (target : Option ObjectId) : Eval Value := do
  let callable ← r.allow callee target
  Eval.withFrame ⟨callable.name?, callable.position?⟩
    (r.enter callable receiver arguments target)

/-- Runs one task, everything below it as further tasks. -/
def step (r : Runner) : {α : Type} → Task α → Eval α
  | _, .eval e s => r.evaluate s e
  | _, .exec statement s => r.execute s statement
  | _, .call callee receiver arguments target => r.apply callee receiver arguments target

end Runner

/-- Runs a task. -/
def run (settings : Settings) : Nat → {α : Type} → Task α → Eval α
  | 0, _, _ => Eval.exhausted
  | fuel + 1, _, task => Runner.step ⟨settings, fuel, run settings fuel⟩ task

/-- The runner with the given fuel. -/
def Settings.runner (settings : Settings) (fuel : Nat) : Runner :=
  ⟨settings, fuel, run settings fuel⟩

namespace Runner

/-! ## Programs -/

/-- Renews the text of a value that no script caught.  Its `toString` runs; when that fails the text
of the throw stays. -/
def renderUncaught (r : Runner) : Fault → Eval Fault
  | .thrown value description trace => do
      match ← Eval.attempt (r.toText value) with
      | .ok text => return .thrown value text trace
      | .error _ => return .thrown value description trace
  | f => pure f

/-- The value of a program that ended so. -/
def programValue : Completion → Eval Value
  | .normal value => pure value
  | .ret _ => Eval.internalFault "Illegal return statement"
  | .brk => Eval.internalFault "Illegal break statement"
  | .cont => Eval.internalFault "Illegal continue statement"

/-- Runs a program in a scope. -/
def evalProgram (r : Runner) (s : ScopeId) (program : Program) : Eval Value := do
  Eval.startClock
  Eval.hoist s program.body
  match ← Eval.attempt (r.statements s .undefined program.body) with
  | .ok completion => programValue completion
  | .error f => Eval.fail (← r.renderUncaught f)

/-- Reads a program from JSON text and runs it in a scope. -/
def evalText (r : Runner) (s : ScopeId) (text : String) : Eval Value :=
  match Program.ofText? text with
  | some program => r.evalProgram s program
  | none => Eval.fail .invalidTree

end Runner

end ScriptTree
