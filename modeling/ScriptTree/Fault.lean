import ScriptTree.Object

/-!
# Faults and call frames

A fault ends an evaluation.  Scripts can catch the first four kinds; internal faults and timeouts go
through to the embedder.  A thrown value and an internal fault carry the calls that were active.
-/

namespace ScriptTree

/-- An active call. -/
structure Frame where
  name : Option String
  /-- Where the function was written, when the tree says so. -/
  position : Option Position
deriving DecidableEq, Repr

namespace Frame

/-- The line a trace shows for a call. -/
def text (f : Frame) : String :=
  let name := f.name.getD "<anonymous>"
  match f.position with
  | some p => "    at " ++ name ++ " (<eval>:" ++ indexText p.line.toNat ++ ":"
      ++ indexText p.column.toNat ++ ")"
  | none => "    at " ++ name

/-- One line for each frame, each after a line break. -/
def traceText (frames : List Frame) : String := String.join (frames.map fun f => "\n" ++ f.text)

end Frame

/-- Why an evaluation ended without a value. -/
inductive Fault where
  | typeError (message : String)
  | referenceError (message : String)
  | rangeError (message : String)
  /-- A value thrown by a script, a text for it, and the active calls, the innermost first. -/
  | thrown (value : Value) (description : String) (trace : List Frame)
  /-- A tree that cannot be run. -/
  | internal (message : String) (trace : List Frame)
  | timeout (limit elapsed : Nat)
  /-- A text that is no tree. -/
  | invalidTree

namespace Fault

/-- The text an embedder shows. -/
def message : Fault → String
  | .typeError m => "TypeError: " ++ m
  | .referenceError m => "ReferenceError: " ++ m
  | .rangeError m => "RangeError: " ++ m
  | .thrown _ description trace => "Uncaught " ++ description ++ Frame.traceText trace
  | .internal m trace => "Internal error: " ++ m ++ Frame.traceText trace
  | .timeout limit elapsed =>
      "Execution timeout: exceeded " ++ indexText limit ++ "ms limit (elapsed: "
        ++ indexText elapsed ++ "ms)"
  | .invalidTree => "Invalid syntax tree: "

/-- Whether a script can catch it. -/
def isCatchable : Fault → Bool
  | .typeError _ | .referenceError _ | .rangeError _ | .thrown .. => true
  | .internal .. | .timeout .. | .invalidTree => false

/-- The value a script threw. -/
def thrown? : Fault → Option Value
  | .thrown value .. => some value
  | _ => none

/-! ## The faults of the evaluator

Each is named for its cause.  `what` is the description of a value. -/

/-- A call of an object that is no function. -/
def notFunction (what : String) : Fault := .typeError (what ++ " is not a function")

/-- A call of something that is not even an object. -/
def notCallable (what : String) : Fault := .referenceError (what ++ " is not a function")

/-- A `new` on something that is no constructor. -/
def notConstructor (what : String) : Fault := .typeError (what ++ " is not a constructor")

/-- A call beyond the limit on active calls. -/
def callDepth : Fault := .rangeError "Maximum call stack size exceeded"

def readOfNullish (what key : String) : Fault :=
  .typeError ("Cannot read properties of " ++ what ++ " (reading '" ++ key ++ "')")

def writeOfNullish (what key : String) : Fault :=
  .typeError ("Cannot set properties of " ++ what ++ " (setting '" ++ key ++ "')")

def deleteOfNullish (what : String) : Fault :=
  .typeError ("Cannot convert " ++ what ++ " to object")

def nullishToObject : Fault := .typeError "Cannot convert undefined or null to object"

def noPrimitive : Fault := .typeError "Cannot convert object to primitive value"

def instanceOfNonCallable : Fault := .typeError "Right-hand side of 'instanceof' is not callable"

def instanceOfNonObject : Fault :=
  .typeError "Function has non-object prototype in instanceof check"

def keyOfIn (what : String) : Fault := .typeError ("Cannot use 'in' operator with key " ++ what)

def targetOfIn (key what : String) : Fault :=
  .typeError ("Cannot use 'in' operator to search for '" ++ key ++ "' in " ++ what)

def undeclared (name : String) : Fault :=
  .referenceError ("Assignment to undeclared variable " ++ name)

def constantAssigned : Fault := .typeError "Assignment to constant variable."

end Fault

end ScriptTree
