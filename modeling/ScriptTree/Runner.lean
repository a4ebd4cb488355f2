import ScriptTree.Eval

/-!
# Tasks and runners

Evaluation is one recursion over three tasks: evaluate an expression, execute a statement, call a
function.  Everything between two tasks is written against a `Runner`, which knows how to run the
next task, so that each rule of the language is a definition of its own and none of them is
recursive.
-/

namespace ScriptTree

/-- How a statement ended. -/
inductive Completion where
  /-- It ran to its end; expression statements have a value. -/
  | normal (value : Value)
  | ret (value : Value)
  | brk
  | cont

/-- What an evaluation can be asked to do. -/
inductive Task : Type → Type where
  | eval (e : Expr) (s : ScopeId) : Task Value
  | exec (stmt : Stmt) (s : ScopeId) : Task Completion
  /-- Call a function.  `target` is the object under construction, if there is one. -/
  | call (callee receiver : Value) (arguments : List Value) (target : Option ObjectId) : Task Value

/-- What the rules of the language need: the settings, how often a loop may turn, and a way to run
further tasks. -/
structure Runner where
  settings : Settings
  turns : Nat
  run : {α : Type} → Task α → Eval α

namespace Runner

/-- Evaluates an expression in a scope. -/
@[inline] def eval (r : Runner) (s : ScopeId) (e : Expr) : Eval Value := r.run (.eval e s)

/-- Executes a statement in a scope. -/
@[inline] def exec (r : Runner) (s : ScopeId) (stmt : Stmt) : Eval Completion :=
  r.run (.exec stmt s)

/-- Calls a function. -/
@[inline] def call (r : Runner) (callee receiver : Value) (arguments : List Value) : Eval Value :=
  r.run (.call callee receiver arguments none)

end Runner

end ScriptTree
