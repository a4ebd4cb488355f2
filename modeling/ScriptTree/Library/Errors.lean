import ScriptTree.Library.Objects

/-!
# Error and its families

A constructor called with `new` fills the object under construction; called without, it makes an
error.  The recorded calls of a constructed error leave out the constructor itself.
-/

namespace ScriptTree

namespace Runner

/-- The text of a message, unless it is undefined. -/
def messageText (r : Runner) (given : Value) : Eval (Option String) := do
  if given.isUndefined then return none else return some (← r.toText given)

/-- Fills an error under construction. -/
def fillError (kind : ErrorKind) (error : ObjectId) (message : Option String) : Eval Unit := do
  let head :=
    match message with
    | some text => kind.name ++ ": " ++ text
    | none => kind.name
  let stack := head ++ Frame.traceText ((← Eval.trace).drop 1)
  match message with
  | some text => Eval.define error "message" (.writable (.string text))
  | none => pure ()
  Eval.define error "stack" (.writable (.string stack))

/-- `Error(message)` and its families. -/
def errorConstructor (r : Runner) (kind : ErrorKind) (arguments : List Value)
    (target : Option ObjectId) : Eval Value := do
  let message ← r.messageText (argument arguments 0)
  match target with
  | none => return .object (← Eval.createError kind (message.getD ""))
  | some error =>
      fillError kind error message
      return .undefined

/-- The text of a property, or a default when it is undefined. -/
def textProperty (r : Runner) (o : ObjectId) (key default : String) : Eval String := do
  let value ← r.readProperty o key (.object o)
  if value.isUndefined then pure default else r.toText value

/-- `error.toString()`: name and message, or whichever is not empty. -/
def errorToString (r : Runner) (receiver : Value) : Eval Value := do
  match receiver with
  | .primitive _ =>
      Eval.fail (.typeError "Error.prototype.toString requires that 'this' be an Object")
  | .object o =>
      let name ← r.textProperty o "name" "Error"
      let message ← r.textProperty o "message" ""
      return .string (
        if message.isEmpty then name
        else if name.isEmpty then message
        else name ++ ": " ++ message)

end Runner

end ScriptTree
