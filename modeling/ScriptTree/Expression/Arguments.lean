import ScriptTree.Construction

/-!
# Calls and lists of expressions

Arguments and array elements are evaluated from left to right.  A spread among them stands for the
elements of its value.
-/

namespace ScriptTree

namespace Runner

/-- The values an argument stands for: those of a spread, or its own. -/
def evalArgument (r : Runner) (s : ScopeId) (e : Expr) : Eval (List Value) := do
  match e with
  | .spread source => r.arrayLike (← r.eval s source)
  | e => return [← r.eval s e]

/-- The values of an argument list. -/
def evalArguments (r : Runner) (s : ScopeId) : List Expr → Eval (List Value)
  | [] => pure []
  | e :: rest => do
      let values ← r.evalArgument s e
      return values ++ (← r.evalArguments s rest)

/-- The values of the elements of an array literal.  Holes are undefined. -/
def evalElements (r : Runner) (s : ScopeId) : List (Option Expr) → Eval (List Value)
  | [] => pure []
  | none :: rest => do return .undefined :: (← r.evalElements s rest)
  | some e :: rest => do
      let values ← r.evalArgument s e
      return values ++ (← r.evalElements s rest)

/-- The value of the last expression, `last` when there is none. -/
def evalSequence (r : Runner) (s : ScopeId) (last : Value) : List Expr → Eval Value
  | [] => pure last
  | e :: rest => do r.evalSequence s (← r.eval s e) rest

/-- The text of a template.  A value follows each piece but the last. -/
def evalTemplate (r : Runner) (s : ScopeId) (text : String) :
    List Quasi → List Expr → Eval Value
  | [], _ => pure (.string text)
  | quasi :: quasis, values => do
      let text := text ++ quasi.cooked.getD quasi.raw
      if quasi.tail then pure (.string text)
      else
        match values with
        | [] => r.evalTemplate s text quasis []
        | e :: rest => do
            let value ← r.toText (← r.eval s e)
            r.evalTemplate s (text ++ value) quasis rest

/-! ## Member access -/

/-- The key of a member access. -/
def accessKey (r : Runner) (s : ScopeId) (property : Expr) (computed : Bool) : Eval String := do
  if computed then r.toKey (← r.eval s property)
  else
    match property with
    | .ident name => pure name
    | _ => Eval.unsupported "private member access"

/-! ## Calls -/

/-- A callee and the `this` of its call: the object when it is a member access. -/
def evalCallee (r : Runner) (s : ScopeId) (callee : Expr) : Eval (Value × Value) := do
  match callee with
  | .access object property computed =>
      let object ← r.eval s object
      let key ← r.accessKey s property computed
      return (← r.getProperty object key, object)
  | callee => return (← r.eval s callee, .undefined)

/-- A call: callee, then arguments, then the call itself. -/
def evalCall (r : Runner) (s : ScopeId) (callee : Expr) (arguments : List Expr) : Eval Value := do
  let (function, receiver) ← r.evalCallee s callee
  let values ← r.evalArguments s arguments
  r.call function receiver values

/-- A `new` expression: constructor, then arguments, then the construction. -/
def evalConstruct (r : Runner) (s : ScopeId) (callee : Expr) (arguments : List Expr) :
    Eval Value := do
  let constructor ← r.eval s callee
  let values ← r.evalArguments s arguments
  return .object (← r.construct constructor values none)

end Runner

end ScriptTree
