import ScriptTree.Library.Errors
import ScriptTree.Library.Wrappers

/-!
# The standard library

Which definition each function of the standard library runs.
-/

namespace ScriptTree

namespace Runner

/-- The texts of values, in order. -/
def toTexts (r : Runner) : List Value → Eval (List String)
  | [] => pure []
  | v :: rest => do
      let text ← r.toText v
      return text :: (← r.toTexts rest)

/-- `console.log` and the like: one line with the texts of all arguments. -/
def printValues (r : Runner) (level : Level) (arguments : List Value) : Eval Value := do
  let texts ← r.toTexts arguments
  Eval.print r.settings level (" ".intercalate texts)
  return .undefined

/-- Runs a function of the standard library.  `target` is the object under construction. -/
def runBuiltin (r : Runner) (builtin : Builtin) (receiver : Value) (arguments : List Value)
    (target : Option ObjectId) : Eval Value :=
  match builtin with
  | .objectConstructor => objectConstructor arguments target
  | .hasOwnProperty => r.hasOwnProperty receiver arguments
  | .objectToString => objectToString receiver
  | .objectValueOf => objectValueOf receiver
  | .objectCreate => objectCreate arguments
  | .getPrototypeOf => getPrototypeOf arguments
  | .defineProperty => r.defineProperty arguments
  | .functionConstructor =>
      Eval.unsupported "Function constructor (no source parser available)"
  | .functionCall => r.functionCall receiver arguments
  | .functionApply => r.functionApply receiver arguments
  | .arrayConstructor => return .undefined
  | .stringConstructor => r.stringConstructor arguments target
  | .stringToString | .stringValueOf => return .string (← Eval.thisText receiver)
  | .numberConstructor => r.numberConstructor arguments target
  | .numberToString => r.numberToString receiver arguments
  | .numberValueOf => return .number (← Eval.thisNumber receiver)
  | .booleanConstructor => booleanConstructor arguments target
  | .booleanToString =>
      return .string (if ← Eval.thisBool receiver then "true" else "false")
  | .booleanValueOf => return .bool (← Eval.thisBool receiver)
  | .symbolConstructor => return .undefined
  | .errorConstructor kind => r.errorConstructor kind arguments target
  | .errorToString => r.errorToString receiver
  | .print level => r.printValues level arguments

end Runner

/-- Answers a call of a function of the embedder. -/
def HostFunction.run (f : HostFunction) (call : HostCall) : Eval Value :=
  match f.answer call with
  | .primitive p => pure (.primitive p)
  | .receiver => pure call.receiver
  | .argument index => pure (argument call.arguments index)
  | .typeError message => Eval.fail (.typeError message)

end ScriptTree
