import ScriptTree.Statement

/-!
# Running the body of a function

A call of a script function opens a scope, binds `arguments` and the parameters there, hoists the
names of the body and runs it.  Arrow functions have neither `this` nor `arguments` of their own.
-/

namespace ScriptTree

namespace Runner

/-- Binds the first parameter to the first of the remaining arguments. -/
def bindParameter (r : Runner) (s : ScopeId) (arguments : List Value) : Pattern → Eval Unit
  | .ident name => Eval.declare s name (arguments.headD .undefined) true
  | .default (.ident name) e => do
      let given := arguments.headD .undefined
      let value ← if given.isUndefined then r.evalNamed s name e else pure given
      Eval.declare s name value true
  | .default _ _ => Eval.unsupported "destructuring parameter"
  | .rest (.ident name) => do
      Eval.declare s name (.object (← Eval.createArray arguments)) true
  | .rest _ => Eval.unsupported "destructuring rest parameter"
  | .unsupported => Eval.unsupported "destructuring parameter"

/-- Binds parameters to arguments.  A missing argument is undefined. -/
def bindParameters (r : Runner) (s : ScopeId) : List Pattern → List Value → Eval Unit
  | [], _ => pure ()
  | param :: rest, arguments => do
      r.bindParameter s arguments param
      r.bindParameters s rest arguments.tail

/-- The value of a call whose body ended so. -/
def bodyValue : Completion → Eval Value
  | .ret value => pure value
  | .normal _ => pure .undefined
  | .brk => Eval.internalFault "Illegal break statement"
  | .cont => Eval.internalFault "Illegal continue statement"

/-- Runs a function body in the scope of its call. -/
def runBody (r : Runner) (s : ScopeId) : FunctionBody → Eval Value
  | .expression e => r.eval s e
  | .block body => do
      Eval.hoist s body
      bodyValue (← r.statements s .undefined body)

/-- Opens the scope of a call. -/
def openCall (c : Closure) (receiver : Value) (arguments : List Value) : Eval ScopeId := do
  if c.isArrow then Eval.openScope (some c.scope) (← Eval.receiver c.scope)
  else
    let s ← Eval.openScope (some c.scope) receiver
    let list ← Eval.createIndexed .objectPrototype arguments
    Eval.declare s "arguments" (.object list) true
    return s

/-- Runs a script function. -/
def invoke (r : Runner) (c : Closure) (receiver : Value) (arguments : List Value) :
    Eval Value := do
  let s ← openCall c receiver arguments
  r.bindParameters s c.code.params arguments
  r.runBody s c.code.body

end Runner

end ScriptTree
