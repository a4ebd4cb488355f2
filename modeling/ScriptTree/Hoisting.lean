import ScriptTree.Eval

/-!
# Hoisting

The names that `var` and function declarations bind are bound to undefined before a body runs.  They
are those declared anywhere in the body, in nested statements too, but not inside functions.
-/

namespace ScriptTree

/-- The plain names that declarators bind. -/
def Declarator.names (declarators : List Declarator) : List String :=
  declarators.filterMap fun declarator =>
    match declarator.target with
    | .ident name => some name
    | _ => none

/-- The names that a declaration hoists. -/
def hoistedDeclaration (kind : DeclarationKind) (declarators : List Declarator) : List String :=
  match kind with
  | .var => Declarator.names declarators
  | .lexical | .constant => []

/-- The names that the head of a `for` loop hoists. -/
def ForInit.hoisted : Option ForInit → List String
  | some (.declaration kind declarators) => hoistedDeclaration kind declarators
  | _ => []

mutual

/-- The names that a statement hoists, in source order. -/
def Stmt.hoisted : Stmt → List String
  | .declaration kind declarators => hoistedDeclaration kind declarators
  | .function code => code.name.toList
  | .block body => hoistedNames body
  | .conditional _ consequent alternate =>
      consequent.hoisted ++
        match alternate with
        | some statement => statement.hoisted
        | none => []
  | .forLoop init _ _ body => ForInit.hoisted init ++ body.hoisted
  | .whileLoop _ body => body.hoisted
  | .doWhile body _ => body.hoisted
  | .switch _ cases => hoistedCases cases
  | .tryCatch block handler finalizer =>
      hoistedNames block ++
        (match handler with
        | some clause => clause.hoisted
        | none => []) ++
        match finalizer with
        | some body => hoistedNames body
        | none => []
  | .expression _ | .empty | .ret _ | .brk _ | .cont _ | .throw _ | .unsupported => []

/-- The names that a list of statements hoists, in source order. -/
def hoistedNames : List Stmt → List String
  | [] => []
  | statement :: rest => statement.hoisted ++ hoistedNames rest

/-- The names that the cases of a `switch` hoist. -/
def hoistedCases : List SwitchCase → List String
  | [] => []
  | ⟨_, body⟩ :: rest => hoistedNames body ++ hoistedCases rest

/-- The names that a catch clause hoists. -/
def CatchClause.hoisted : CatchClause → List String
  | ⟨_, body⟩ => hoistedNames body

end

/-- Binds each name to undefined unless the scope binds it already. -/
def Eval.declareAll (s : ScopeId) : List String → Eval Unit
  | [] => pure ()
  | name :: rest => do
      declareIfAbsent s name
      declareAll s rest

/-- Binds what a body hoists. -/
def Eval.hoist (s : ScopeId) (body : List Stmt) : Eval Unit := declareAll s (hoistedNames body)

end ScriptTree
