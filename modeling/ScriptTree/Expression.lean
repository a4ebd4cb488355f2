import ScriptTree.Expression.Assignment
import ScriptTree.Expression.ObjectLiteral

/-!
# Expressions

What each form of expression does.  Sub-expressions are tasks of their own, so nothing here is
recursive.
-/

namespace ScriptTree

/-- The value of a literal. -/
def Eval.literal (l : Literal) : Eval Value :=
  if l.regex.isSome then unsupported "regular expression literal"
  else if l.bigint.isSome then unsupported "BigInt literal"
  else
    match l.value with
    | .null => pure .null
    | .bool b => pure (.bool b)
    | .number x => pure (.number x)
    | .string s => pure (.string s)
    | .other _ => unsupported "literal"

namespace Runner

/-- Evaluates an expression, its sub-expressions as further tasks. -/
def evaluate (r : Runner) (s : ScopeId) : Expr → Eval Value
  | .ident name => Eval.lookup s name
  | .literal l => Eval.literal l
  | .this => Eval.receiver s
  | .array elements => do
      let values ← r.evalElements s elements
      return .object (← Eval.createArray values)
  | .object members => do
      let o ← Eval.createObject
      r.defineMembers s o members
      return .object o
  | .function code => Eval.functionExpression s code
  | .arrow code => Eval.instantiate s code true none
  | .template quasis values => r.evalTemplate s "" quasis values
  | .unary .delete e => r.evalDelete s e
  | .unary op e => do r.applyUnary op (← r.eval s e)
  | .update op givesNew e => r.evalUpdate s op givesNew e
  | .binary op left right => do
      let a ← r.eval s left
      let b ← r.eval s right
      r.applyBinary op a b
  | .logical op left right => do
      let a ← r.eval s left
      if op.stopsAt a then return a else r.eval s right
  | .assign op target e => r.evalAssign s op target e
  | .conditional test consequent alternate => do
      if (← r.eval s test).truthy then r.eval s consequent else r.eval s alternate
  | .sequence items => r.evalSequence s .undefined items
  | .access object property computed => do
      let object ← r.eval s object
      let key ← r.accessKey s property computed
      r.getProperty object key
  | .call callee arguments => r.evalCall s callee arguments
  | .construct callee arguments => r.evalConstruct s callee arguments
  | .spread _ => Eval.internalFault "Spread element outside of an array literal or argument list"
  | .unsupported => Eval.unsupported "expression"

end Runner

end ScriptTree
