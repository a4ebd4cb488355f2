import ScriptTree.Creation
import ScriptTree.Expression.Naming
import ScriptTree.Hoisting

/-!
# Statements

What each form of statement does.  Loops turn at most `Runner.turns` times; all other statements run
their parts as further tasks.
-/

namespace ScriptTree

/-- What a loop does after a turn. -/
inductive Turn where
  | again
  | leave (completion : Completion)

/-- What a loop does when its body has ended so. -/
def Completion.turn : Completion → Turn
  | .normal _ | .cont => .again
  | .brk => .leave (.normal .undefined)
  | .ret value => .leave (.ret value)

namespace Eval

/-- Turns a loop until it leaves, at most so often. -/
def iterate (turn : Eval Turn) : Nat → Eval Completion
  | 0 => exhausted
  | turns + 1 => do
      match ← turn with
      | .again => iterate turn turns
      | .leave completion => pure completion

/-- Ends as an attempt ended. -/
def ofAttempt {α : Type} : Except Fault α → Eval α
  | .ok a => pure a
  | .error f => fail f

end Eval

namespace Runner

/-! ## Statement lists -/

/-- Executes statements in order up to the first that does not run to its end.  The value is that of
the last one, `last` when there is none. -/
def statements (r : Runner) (s : ScopeId) (last : Value) : List Stmt → Eval Completion
  | [] => pure (.normal last)
  | statement :: rest => do
      match ← r.exec s statement with
      | .normal value => r.statements s value rest
      | completion => pure completion

/-- Executes statements in a scope of their own. -/
def block (r : Runner) (s : ScopeId) (body : List Stmt) : Eval Completion := do
  r.statements (← Eval.childScope s) .undefined body

/-! ## Declarations -/

/-- Gives a hoisted name a value by `write`, or binds it here when nothing around binds it. -/
def bindHoisted (s : ScopeId) (name : String) (value : Value)
    (write : ScopeId → String → Value → Eval Unit) : Eval Unit := do
  if ← Eval.isBound s name then write s name value else Eval.declare s name value true

/-- Executes one declarator. -/
def declarator (r : Runner) (s : ScopeId) (kind : DeclarationKind) (name : String)
    (init : Option Expr) : Eval Unit := do
  match kind, init with
  | .var, none => pure ()
  | .var, some e => bindHoisted s name (← r.evalNamed s name e) Eval.assignVar
  | _, none => Eval.declare s name .undefined (kind = .lexical)
  | _, some e => do Eval.declare s name (← r.evalNamed s name e) (kind = .lexical)

/-- Executes the declarators of a declaration. -/
def declarators (r : Runner) (s : ScopeId) (kind : DeclarationKind) :
    List Declarator → Eval Unit
  | [] => pure ()
  | ⟨.ident name, init⟩ :: rest => do
      r.declarator s kind name init
      r.declarators s kind rest
  | _ :: _ => Eval.unsupported "destructuring declaration"

/-- Executes a function declaration. -/
def functionDeclaration (s : ScopeId) (code : FunctionCode) : Eval Unit := do
  match code.name with
  | none => Eval.internalFault "Function declaration without a name"
  | some name => bindHoisted s name (← Eval.instantiate s code false none) Eval.assign

/-! ## Loops -/

/-- One turn of a `while` loop. -/
def whileTurn (r : Runner) (s : ScopeId) (test : Expr) (body : Stmt) : Eval Turn := do
  Eval.checkTimeout r.settings
  if (← r.eval s test).truthy then return (← r.exec s body).turn
  else return .leave (.normal .undefined)

/-- One turn of a `do` loop. -/
def doWhileTurn (r : Runner) (s : ScopeId) (body : Stmt) (test : Expr) : Eval Turn := do
  Eval.checkTimeout r.settings
  match (← r.exec s body).turn with
  | .leave completion => return .leave completion
  | .again =>
      if (← r.eval s test).truthy then return .again else return .leave (.normal .undefined)

/-- Whether a `for` loop goes on.  Without a test it does. -/
def forTest (r : Runner) (s : ScopeId) : Option Expr → Eval Bool
  | none => pure true
  | some test => return (← r.eval s test).truthy

/-- Evaluates the part of a `for` loop that runs after each turn. -/
def forUpdate (r : Runner) (s : ScopeId) : Option Expr → Eval Unit
  | none => pure ()
  | some update => do
      let _ ← r.eval s update
      pure ()

/-- One turn of a `for` loop. -/
def forTurn (r : Runner) (s : ScopeId) (test update : Option Expr) (body : Stmt) : Eval Turn := do
  Eval.checkTimeout r.settings
  if ← r.forTest s test then
    match (← r.exec s body).turn with
    | .leave completion => return .leave completion
    | .again =>
        r.forUpdate s update
        return .again
  else return .leave (.normal .undefined)

/-- Executes the head of a `for` loop. -/
def forInit (r : Runner) (s : ScopeId) : Option ForInit → Eval Unit
  | none => pure ()
  | some (.declaration kind declarators) => r.declarators s kind declarators
  | some (.expression e) => do
      let _ ← r.eval s e
      pure ()

/-- A `for` loop.  All turns share one scope. -/
def forLoop (r : Runner) (s : ScopeId) (init : Option ForInit) (test update : Option Expr)
    (body : Stmt) : Eval Completion := do
  let inner ← Eval.childScope s
  r.forInit inner init
  Eval.iterate (r.forTurn inner test update body) r.turns

/-! ## Switch -/

/-- The cases from the first one whose test equals the discriminant on.  Tests run in order. -/
def matchingCases (r : Runner) (s : ScopeId) (discriminant : Value) :
    List SwitchCase → Eval (Option (List SwitchCase))
  | [] => pure none
  | clause :: rest => do
      match clause.test with
      | none => r.matchingCases s discriminant rest
      | some test =>
          if (← r.eval s test).strictEquals discriminant then return some (clause :: rest)
          else r.matchingCases s discriminant rest

/-- The cases from the default on. -/
def defaultCases (cases : List SwitchCase) : List SwitchCase :=
  cases.dropWhile fun clause => clause.test.isSome

/-- Executes the bodies of cases, one after the other. -/
def runCases (r : Runner) (s : ScopeId) : List SwitchCase → Eval Completion
  | [] => pure (.normal .undefined)
  | clause :: rest => do
      match ← r.statements s .undefined clause.body with
      | .normal _ => r.runCases s rest
      | .brk => pure (.normal .undefined)
      | completion => pure completion

/-- A `switch`.  Tests and bodies share one scope, and without a match the default runs. -/
def switch (r : Runner) (s : ScopeId) (discriminant : Expr) (cases : List SwitchCase) :
    Eval Completion := do
  let value ← r.eval s discriminant
  let inner ← Eval.childScope s
  match ← r.matchingCases inner value cases with
  | some cases => r.runCases inner cases
  | none => r.runCases inner (defaultCases cases)

/-! ## Try -/

/-- Binds the parameter of a catch clause. -/
def bindCaught (s : ScopeId) (f : Fault) : Option Pattern → Eval Unit
  | none => pure ()
  | some (.ident name) => do Eval.declare s name ((← Eval.faultValue f).getD .undefined) true
  | some _ => Eval.unsupported "destructuring catch parameter"

/-- Runs a catch clause for a fault. -/
def handle (r : Runner) (s : ScopeId) (clause : CatchClause) (f : Fault) :
    Eval (Except Fault Completion) := do
  let inner ← Eval.childScope s
  bindCaught inner f clause.param
  Eval.attempt (r.block inner clause.body)

/-- Runs the catch clause when there is one and the block ended with a fault that it can catch. -/
def handled (r : Runner) (s : ScopeId) (handler : Option CatchClause)
    (result : Except Fault Completion) : Eval (Except Fault Completion) :=
  match handler, result with
  | some clause, .error f => if f.isCatchable then r.handle s clause f else pure result
  | _, _ => pure result

/-- Runs the finalizer and ends as `result` says, unless the finalizer ends otherwise itself. -/
def finish (r : Runner) (s : ScopeId) (finalizer : Option (List Stmt))
    (result : Except Fault Completion) : Eval Completion := do
  match finalizer with
  | none => Eval.ofAttempt result
  | some body =>
      match ← r.block s body with
      | .normal _ => Eval.ofAttempt result
      | completion => pure completion

/-- A `try` statement: block, then handler, then finalizer. -/
def tryCatch (r : Runner) (s : ScopeId) (block : List Stmt) (handler : Option CatchClause)
    (finalizer : Option (List Stmt)) : Eval Completion := do
  let result ← Eval.attempt (r.block s block)
  let result ← r.handled s handler result
  r.finish s finalizer result

/-! ## All statements -/

/-- Executes a statement, its parts as further tasks. -/
def execute (r : Runner) (s : ScopeId) : Stmt → Eval Completion
  | .declaration kind declarators => do
      r.declarators s kind declarators
      return .normal .undefined
  | .function code => do
      functionDeclaration s code
      return .normal .undefined
  | .expression e => return .normal (← r.eval s e)
  | .block body => r.block s body
  | .empty => return .normal .undefined
  | .conditional test consequent alternate => do
      if (← r.eval s test).truthy then r.exec s consequent
      else
        match alternate with
        | some statement => r.exec s statement
        | none => return .normal .undefined
  | .forLoop init test update body => r.forLoop s init test update body
  | .whileLoop test body => Eval.iterate (r.whileTurn s test body) r.turns
  | .doWhile body test => Eval.iterate (r.doWhileTurn s body test) r.turns
  | .switch discriminant cases => r.switch s discriminant cases
  | .tryCatch block handler finalizer => r.tryCatch s block handler finalizer
  | .ret none => return .ret .undefined
  | .ret (some e) => return .ret (← r.eval s e)
  | .brk label => if label.isSome then Eval.unsupported "labeled break" else return .brk
  | .cont label => if label.isSome then Eval.unsupported "labeled continue" else return .cont
  | .throw e => do Eval.throwValue (← r.eval s e)
  | .unsupported => Eval.unsupported "statement"

end Runner

end ScriptTree
