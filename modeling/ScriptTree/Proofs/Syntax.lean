import ScriptTree.Hoisting
import ScriptTree.Runner

/-!
# Conditions on trees

Three things are read off a tree before it runs.

*Checks.*  `Checks` is a condition on single nodes, and `all` asks it of every node that an
evaluation can reach, those of nested functions included.  The children a node only looks at are
part of the node itself: a key that is not computed, the target of an update, the names that a
declaration, a catch clause or a parameter binds.  A spread is a node of its own only where it is no
argument and no array element.

*Jumps.*  `Stmt.jumps` lists the jumps that can leave a statement: loops keep `break` and `continue`
inside, a `switch` keeps `break` inside, and functions keep everything inside.

*Declarations.*  `Stmt.declares` tells whether a statement binds names in the very scope it runs in.
-/

namespace ScriptTree

/-! ## Checks of single nodes -/

/-- A condition on the nodes of a tree. -/
structure Checks where
  expr : Expr → Bool
  stmt : Stmt → Bool
  code : FunctionCode → Bool

mutual

/-- Whether an expression and everything in it pass. -/
def Expr.all (c : Checks) : Expr → Bool
  | e@(.ident _) | e@(.literal _) => c.expr e
  | .this => c.expr .this
  | e@(.array elements) => c.expr e && allElements c elements
  | e@(.object members) => c.expr e && allMembers c members
  | e@(.function code) | e@(.arrow code) => c.expr e && code.all c
  | e@(.template _ values) => c.expr e && allExprs c values
  | e@(.unary _ argument) => c.expr e && argument.all c
  | e@(.update _ _ argument) => c.expr e && argument.all c
  | e@(.binary _ left right) => c.expr e && left.all c && right.all c
  | e@(.logical _ left right) => c.expr e && left.all c && right.all c
  | e@(.assign _ target value) => c.expr e && target.all c && value.all c
  | e@(.conditional test consequent alternate) =>
      c.expr e && test.all c && consequent.all c && alternate.all c
  | e@(.sequence items) => c.expr e && allExprs c items
  | e@(.access object property computed) =>
      c.expr e && object.all c && (!computed || property.all c)
  | e@(.call callee arguments) => c.expr e && callee.all c && allArguments c arguments
  | e@(.construct callee arguments) => c.expr e && callee.all c && allArguments c arguments
  | e@(.spread argument) => c.expr e && argument.all c
  | .unsupported => c.expr .unsupported

/-- Whether the parts of an assignment target pass. -/
def Target.all (c : Checks) : Target → Bool
  | .ident _ | .unsupported => true
  | .access object property computed => object.all c && (!computed || property.all c)

/-- Whether the parts of a member of an object literal pass. -/
def Member.all (c : Checks) : Member → Bool
  | .property key value _ computed _ _ => (!computed || key.all c) && value.all c
  | .spread argument => argument.all c
  | .unsupported => true

/-- Whether the default of a parameter passes. -/
def Pattern.all (c : Checks) : Pattern → Bool
  | .default _ value => value.all c
  | .ident _ | .rest _ | .unsupported => true

/-- Whether a function and everything in it pass. -/
def FunctionCode.all (c : Checks) : FunctionCode → Bool
  | f@⟨_, params, body, _, _, _⟩ => c.code f && allParams c params && body.all c

/-- Whether a function body passes. -/
def FunctionBody.all (c : Checks) : FunctionBody → Bool
  | .block body => allStmts c body
  | .expression value => value.all c

/-- Whether a statement and everything in it pass. -/
def Stmt.all (c : Checks) : Stmt → Bool
  | s@(.declaration _ declarators) => c.stmt s && allDeclarators c declarators
  | s@(.function code) => c.stmt s && code.all c
  | s@(.expression value) => c.stmt s && value.all c
  | s@(.block body) => c.stmt s && allStmts c body
  | s@(.conditional test consequent alternate) =>
      c.stmt s && test.all c && consequent.all c && allAlternate c alternate
  | s@(.forLoop init test update body) =>
      c.stmt s && allInit c init && allOptional c test && allOptional c update && body.all c
  | s@(.whileLoop test body) => c.stmt s && test.all c && body.all c
  | s@(.doWhile body test) => c.stmt s && body.all c && test.all c
  | s@(.switch discriminant cases) => c.stmt s && discriminant.all c && allCases c cases
  | s@(.tryCatch block handler finalizer) =>
      c.stmt s && allStmts c block && allHandler c handler && allFinalizer c finalizer
  | s@(.ret value) => c.stmt s && allOptional c value
  | s@(.throw value) => c.stmt s && value.all c
  | s@(.brk _) | s@(.cont _) => c.stmt s
  | .empty => c.stmt .empty
  | .unsupported => c.stmt .unsupported

/-- Whether the other branch of a conditional passes. -/
def allAlternate (c : Checks) : Option Stmt → Bool
  | none => true
  | some statement => statement.all c

/-- Whether an expression that may be missing passes. -/
def allOptional (c : Checks) : Option Expr → Bool
  | none => true
  | some e => e.all c

/-- Whether the head of a `for` loop passes. -/
def allInit (c : Checks) : Option ForInit → Bool
  | none => true
  | some (.declaration _ declarators) => allDeclarators c declarators
  | some (.expression value) => value.all c

/-- Whether a catch clause passes. -/
def allHandler (c : Checks) : Option CatchClause → Bool
  | none => true
  | some ⟨_, body⟩ => allStmts c body

/-- Whether a finalizer passes. -/
def allFinalizer (c : Checks) : Option (List Stmt) → Bool
  | none => true
  | some body => allStmts c body

def allStmts (c : Checks) : List Stmt → Bool
  | [] => true
  | statement :: rest => statement.all c && allStmts c rest

def allCases (c : Checks) : List SwitchCase → Bool
  | [] => true
  | ⟨test, body⟩ :: rest => allOptional c test && allStmts c body && allCases c rest

def allDeclarators (c : Checks) : List Declarator → Bool
  | [] => true
  | ⟨_, init⟩ :: rest => allOptional c init && allDeclarators c rest

def allParams (c : Checks) : List Pattern → Bool
  | [] => true
  | param :: rest => param.all c && allParams c rest

def allExprs (c : Checks) : List Expr → Bool
  | [] => true
  | e :: rest => e.all c && allExprs c rest

/-- Whether arguments pass.  Of a spread, its source counts. -/
def allArguments (c : Checks) : List Expr → Bool
  | [] => true
  | .spread source :: rest => source.all c && allArguments c rest
  | e :: rest => e.all c && allArguments c rest

/-- Whether the elements of an array literal pass.  Of a spread, its source counts. -/
def allElements (c : Checks) : List (Option Expr) → Bool
  | [] => true
  | none :: rest => allElements c rest
  | some (.spread source) :: rest => source.all c && allElements c rest
  | some e :: rest => e.all c && allElements c rest

def allMembers (c : Checks) : List Member → Bool
  | [] => true
  | member :: rest => member.all c && allMembers c rest

end

attribute [simp] Expr.all Target.all Member.all Pattern.all FunctionCode.all FunctionBody.all
  Stmt.all allAlternate allOptional allInit allHandler allFinalizer allStmts allCases
  allDeclarators allParams allExprs allMembers

/-- Whether an argument or array element passes.  Of a spread, its source counts. -/
def Expr.allArgument (c : Checks) : Expr → Bool
  | .spread source => source.all c
  | e => e.all c

@[simp] theorem allArguments_cons (c : Checks) (e : Expr) (rest : List Expr) :
    allArguments c (e :: rest) = (e.allArgument c && allArguments c rest) := by
  cases e <;> rfl

@[simp] theorem allElements_cons (c : Checks) (e : Expr) (rest : List (Option Expr)) :
    allElements c (some e :: rest) = (e.allArgument c && allElements c rest) := by
  cases e <;> rfl

/-! ## The check that everything passes -/

/-- No condition at all. -/
def Checks.anything : Checks := ⟨fun _ => true, fun _ => true, fun _ => true⟩

@[simp] theorem Checks.anything_expr (e : Expr) : anything.expr e = true := rfl
@[simp] theorem Checks.anything_stmt (s : Stmt) : anything.stmt s = true := rfl
@[simp] theorem Checks.anything_code (f : FunctionCode) : anything.code f = true := rfl

theorem Expr.allArgument_anything (e : Expr) (h : e.all .anything = true) :
    e.allArgument .anything = true := by
  cases e with
  | spread source => exact h
  | _ => exact h

mutual

theorem Expr.all_anything : ∀ e : Expr, e.all .anything = true
  | .ident _ | .literal _ | .this | .unsupported => rfl
  | .array elements => allElements_anything elements
  | .object members => allMembers_anything members
  | .function code | .arrow code => code.all_anything
  | .template _ values => allExprs_anything values
  | .unary _ argument | .update _ _ argument | .spread argument => argument.all_anything
  | .binary _ left right | .logical _ left right => by
      simp [left.all_anything, right.all_anything]
  | .assign _ target value => by
      simp [target.all_anything, value.all_anything]
  | .conditional test consequent alternate => by
      simp [test.all_anything, consequent.all_anything, alternate.all_anything]
  | .sequence items => allExprs_anything items
  | .access whole key _ => by
      simp [whole.all_anything, key.all_anything]
  | .call callee arguments | .construct callee arguments => by
      simp [callee.all_anything, allArguments_anything arguments]

theorem Target.all_anything : ∀ t : Target, t.all .anything = true
  | .ident _ | .unsupported => rfl
  | .access whole key _ => by simp [whole.all_anything, key.all_anything]

theorem Member.all_anything : ∀ m : Member, m.all .anything = true
  | .property key value _ _ _ _ => by simp [key.all_anything, value.all_anything]
  | .spread argument => argument.all_anything
  | .unsupported => rfl

theorem Pattern.all_anything : ∀ p : Pattern, p.all .anything = true
  | .default _ value => value.all_anything
  | .ident _ | .rest _ | .unsupported => rfl

theorem FunctionCode.all_anything : ∀ f : FunctionCode, f.all .anything = true
  | ⟨_, params, body, _, _, _⟩ => by
      simp [allParams_anything params, body.all_anything]

theorem FunctionBody.all_anything : ∀ b : FunctionBody, b.all .anything = true
  | .block body => allStmts_anything body
  | .expression value => value.all_anything

theorem Stmt.all_anything : ∀ s : Stmt, s.all .anything = true
  | .declaration _ declarators => allDeclarators_anything declarators
  | .function code => code.all_anything
  | .expression value | .throw value => value.all_anything
  | .block body => allStmts_anything body
  | .conditional test consequent alternate => by
      simp [test.all_anything, consequent.all_anything, allAlternate_anything alternate]
  | .forLoop init test update body => by
      simp [allInit_anything init, allOptional_anything test,
        allOptional_anything update, body.all_anything]
  | .whileLoop test body | .doWhile body test => by
      simp [test.all_anything, body.all_anything]
  | .switch discriminant cases => by
      simp [discriminant.all_anything, allCases_anything cases]
  | .tryCatch block handler finalizer => by
      simp [allStmts_anything block, allHandler_anything handler,
        allFinalizer_anything finalizer]
  | .ret value => allOptional_anything value
  | .empty | .brk _ | .cont _ | .unsupported => rfl

theorem allAlternate_anything : ∀ s : Option Stmt, allAlternate .anything s = true
  | none => rfl
  | some statement => statement.all_anything

theorem allOptional_anything : ∀ e : Option Expr, allOptional .anything e = true
  | none => rfl
  | some e => e.all_anything

theorem allInit_anything : ∀ i : Option ForInit, allInit .anything i = true
  | none => rfl
  | some (.declaration _ declarators) => allDeclarators_anything declarators
  | some (.expression value) => value.all_anything

theorem allHandler_anything : ∀ h : Option CatchClause, allHandler .anything h = true
  | none => rfl
  | some ⟨_, body⟩ => allStmts_anything body

theorem allFinalizer_anything : ∀ b : Option (List Stmt), allFinalizer .anything b = true
  | none => rfl
  | some body => allStmts_anything body

theorem allStmts_anything : ∀ body : List Stmt, allStmts .anything body = true
  | [] => rfl
  | statement :: rest => by simp [statement.all_anything, allStmts_anything rest]

theorem allCases_anything : ∀ cases : List SwitchCase, allCases .anything cases = true
  | [] => rfl
  | ⟨test, body⟩ :: rest => by
      simp [allOptional_anything test, allStmts_anything body, allCases_anything rest]

theorem allDeclarators_anything : ∀ ds : List Declarator, allDeclarators .anything ds = true
  | [] => rfl
  | ⟨_, init⟩ :: rest => by
      simp [allOptional_anything init, allDeclarators_anything rest]

theorem allParams_anything : ∀ params : List Pattern, allParams .anything params = true
  | [] => rfl
  | param :: rest => by simp [param.all_anything, allParams_anything rest]

theorem allExprs_anything : ∀ es : List Expr, allExprs .anything es = true
  | [] => rfl
  | e :: rest => by simp [e.all_anything, allExprs_anything rest]

theorem allArguments_anything : ∀ es : List Expr, allArguments .anything es = true
  | [] => rfl
  | e :: rest => by
      rw [allArguments_cons, e.allArgument_anything e.all_anything, allArguments_anything rest]
      rfl

theorem allElements_anything : ∀ es : List (Option Expr), allElements .anything es = true
  | [] => rfl
  | none :: rest => allElements_anything rest
  | some e :: rest => by
      rw [allElements_cons, e.allArgument_anything e.all_anything, allElements_anything rest]
      rfl

theorem allMembers_anything : ∀ ms : List Member, allMembers .anything ms = true
  | [] => rfl
  | member :: rest => by simp [member.all_anything, allMembers_anything rest]

end

/-! ## Jumps -/

/-- The ways in which a statement can end before its end. -/
inductive Jump where
  | brk
  | cont
  | ret
deriving DecidableEq, Repr

mutual

/-- The jumps that can leave a statement, in source order. -/
def Stmt.jumps : Stmt → List Jump
  | .ret _ => [.ret]
  | .brk _ => [.brk]
  | .cont _ => [.cont]
  | .block body => jumpsOf body
  | .conditional _ consequent alternate =>
      consequent.jumps ++
        match alternate with
        | some statement => statement.jumps
        | none => []
  | .forLoop _ _ _ body | .whileLoop _ body | .doWhile body _ => body.jumps.filter (· = .ret)
  | .switch _ cases => (jumpsOfCases cases).filter (· ≠ .brk)
  | .tryCatch block handler finalizer =>
      jumpsOf block ++ (jumpsOfHandler handler ++ jumpsOfFinalizer finalizer)
  | .declaration .. | .function _ | .expression _ | .empty | .throw _ | .unsupported => []

/-- The jumps that can leave a list of statements. -/
def jumpsOf : List Stmt → List Jump
  | [] => []
  | statement :: rest => statement.jumps ++ jumpsOf rest

/-- The jumps in the bodies of the cases of a `switch`. -/
def jumpsOfCases : List SwitchCase → List Jump
  | [] => []
  | ⟨_, body⟩ :: rest => jumpsOf body ++ jumpsOfCases rest

/-- The jumps that can leave a catch clause. -/
def jumpsOfHandler : Option CatchClause → List Jump
  | none => []
  | some ⟨_, body⟩ => jumpsOf body

/-- The jumps that can leave a finalizer. -/
def jumpsOfFinalizer : Option (List Stmt) → List Jump
  | none => []
  | some body => jumpsOf body

end

/-! ## Declarations -/

/-- Whether a statement binds names in the very scope it runs in.  Blocks, `for` loops, `switch` and
`try` open scopes of their own. -/
def Stmt.declares : Stmt → Bool
  | .declaration .. | .function _ => true
  | .conditional _ consequent alternate =>
      consequent.declares ||
        match alternate with
        | some statement => statement.declares
        | none => false
  | .whileLoop _ body | .doWhile body _ => body.declares
  | _ => false

/-! ## What the evaluator can run -/

/-- Whether an expression is a variable. -/
def Expr.isIdent : Expr → Bool
  | .ident _ => true
  | _ => false

/-- Whether an expression names a place: a variable or a member access. -/
def Expr.isPlace : Expr → Bool
  | .ident _ | .access .. => true
  | _ => false

/-- Whether an expression makes a function. -/
def Expr.isFunction : Expr → Bool
  | .function _ | .arrow _ => true
  | _ => false

/-- Whether a pattern is a plain name. -/
def Pattern.isIdent : Pattern → Bool
  | .ident _ => true
  | _ => false

/-- Whether a pattern can stand as a parameter: a name, a name with a default, or a rest name. -/
def Pattern.isParameter : Pattern → Bool
  | .ident _ => true
  | .default target _ => target.isIdent
  | .rest target => target.isIdent
  | .unsupported => false

/-- Whether a literal denotes a script value. -/
def Literal.isSupported (l : Literal) : Bool :=
  l.regex.isNone && l.bigint.isNone &&
    match l.value with
    | .other _ => false
    | _ => true

/-- Whether an expression can stand as a key that is not computed. -/
def Expr.isKey : Expr → Bool
  | .ident _ => true
  | .literal l =>
      match l.value with
      | .string _ | .number _ => true
      | _ => false
  | _ => false

/-- Whether a member of an object literal can be defined. -/
def Member.isSupported : Member → Bool
  | .property key _ _ computed _ _ => computed || key.isKey
  | .spread _ => true
  | .unsupported => false

/-- Whether an assignment can write to a target. -/
def Target.isSupported : Target → Bool
  | .ident _ => true
  | .access _ property computed => computed || property.isIdent
  | .unsupported => false

/-- Whether an expression is no fault by itself. -/
def Expr.isSupported : Expr → Bool
  | .literal l => l.isSupported
  | .object members => members.all Member.isSupported
  | .update _ _ argument => argument.isPlace
  | .assign _ target _ => target.isSupported
  | .access _ property computed => computed || property.isIdent
  | .spread _ | .unsupported => false
  | _ => true

/-- Whether declarators bind plain names only. -/
def Declarator.arePlain (declarators : List Declarator) : Bool :=
  declarators.all fun declarator => declarator.target.isIdent

/-- Whether the head of a `for` loop binds plain names only. -/
def ForInit.isSupported : Option ForInit → Bool
  | some (.declaration _ declarators) => Declarator.arePlain declarators
  | _ => true

/-- Whether a catch clause binds a plain name, if any. -/
def CatchClause.isSupported : Option CatchClause → Bool
  | some ⟨some param, _⟩ => param.isIdent
  | _ => true

/-- Whether a statement is no fault by itself. -/
def Stmt.isSupported : Stmt → Bool
  | .declaration _ declarators => Declarator.arePlain declarators
  | .function code => code.name.isSome
  | .forLoop init _ _ _ => ForInit.isSupported init
  | .tryCatch _ handler _ => CatchClause.isSupported handler
  | .brk label | .cont label => label.isNone
  | .unsupported => false
  | _ => true

/-- Whether a body is left by `return` only. -/
def FunctionBody.keepsJumps : FunctionBody → Bool
  | .block body => (jumpsOf body).all (· = .ret)
  | .expression _ => true

/-- Whether a function is no fault by itself. -/
def FunctionCode.isSupported (f : FunctionCode) : Bool :=
  !f.generator && !f.isAsync && f.params.all Pattern.isParameter && f.body.keepsJumps

/-- The nodes that are no fault by themselves. -/
def Checks.supported : Checks :=
  ⟨Expr.isSupported, Stmt.isSupported, FunctionCode.isSupported⟩

/-- Whether a statement is a loop. -/
def Stmt.isLoop : Stmt → Bool
  | .forLoop .. | .whileLoop .. | .doWhile .. => true
  | _ => false

/-- The nodes that are no loop. -/
def Checks.loopFree : Checks := ⟨fun _ => true, fun s => !s.isLoop, fun _ => true⟩

/-- Whether a member of an object literal is written as a function if it is a getter or a
setter. -/
def Member.accessorIsFunction : Member → Bool
  | .property _ value .getter _ _ _ | .property _ value .setter _ _ _ => value.isFunction
  | _ => true

/-- Whether every getter and setter of an object literal is written as a function. -/
def Expr.accessorsAreFunctions : Expr → Bool
  | .object members => members.all Member.accessorIsFunction
  | _ => true

/-- A condition that asks at least as much as another. -/
structure Checks.Refines (c d : Checks) : Prop where
  expr : ∀ e, c.expr e = true → d.expr e = true
  stmt : ∀ s, c.stmt s = true → d.stmt s = true
  code : ∀ f, c.code f = true → d.code f = true

/-! ## The check of a node itself -/

theorem Expr.expr_of_all {c : Checks} {e : Expr} (h : e.all c = true) : c.expr e = true := by
  cases e <;> simp_all

theorem Stmt.stmt_of_all {c : Checks} {s : Stmt} (h : s.all c = true) : c.stmt s = true := by
  cases s <;> simp_all

theorem FunctionCode.code_of_all {c : Checks} {f : FunctionCode} (h : f.all c = true) :
    c.code f = true := by
  obtain ⟨name, params, body, generator, isAsync, span⟩ := f
  simp only [FunctionCode.all, Bool.and_eq_true] at h
  exact h.1.1

/-- A member access that passes the checks has a key that can be read. -/
theorem Checks.Refines.key_of_access {c : Checks} (refines : c.Refines .supported) {e e' : Expr}
    {computed : Bool} (h : (Expr.access e e' computed).all c = true) :
    (computed || e'.isIdent) = true :=
  refines.expr _ (Expr.expr_of_all h)

end ScriptTree
