import ScriptTree.Json

/-!
# Syntax trees

The trees of an ESTree program, as closed types.  A node kind outside them is `unsupported`: it is
part of the tree and fails only when it runs.
-/

namespace ScriptTree

/-! ## Source positions -/

/-- A line and a column. -/
structure Position where
  line : UInt32
  column : UInt32
deriving DecidableEq, Repr

/-- Where a node starts and ends. -/
structure Span where
  start : Position
  stop : Position
deriving DecidableEq, Repr

/-! ## Operators and kinds -/

/-- How a declaration binds its names: `var`, `let` or `const`. -/
inductive DeclarationKind where
  | var
  | lexical
  | constant
deriving DecidableEq, Repr

/-- What a property of an object literal defines: a value, a getter or a setter. -/
inductive MemberKind where
  | init
  | getter
  | setter
deriving DecidableEq, Repr

/-- The operators with one operand. -/
inductive UnaryOp where
  | minus
  | plus
  | not
  | bitNot
  | typeof
  | void
  | delete
deriving DecidableEq, Repr

/-- The operators `++` and `--`. -/
inductive UpdateOp where
  | increment
  | decrement
deriving DecidableEq, Repr

/-- The operators that evaluate both operands. -/
inductive BinaryOp where
  | add
  | sub
  | mul
  | div
  | mod
  | exp
  | eq
  | notEq
  | strictEq
  | strictNotEq
  | lt
  | ltEq
  | gt
  | gtEq
  | bitAnd
  | bitOr
  | bitXor
  | shiftLeft
  | shiftRight
  | shiftRightUnsigned
  | isIn
  | instanceOf
deriving DecidableEq, Repr

/-- The operators that may leave their right operand unevaluated. -/
inductive LogicalOp where
  | and
  | or
  | nullish
deriving DecidableEq, Repr

/-- The arithmetic and bitwise operators and the shifts, which an assignment can apply. -/
inductive CompoundOp where
  | add
  | sub
  | mul
  | div
  | mod
  | exp
  | bitAnd
  | bitOr
  | bitXor
  | shiftLeft
  | shiftRight
  | shiftRightUnsigned
deriving DecidableEq, Repr

/-- An assignment writes a value, the result of an operator, or a value on a condition. -/
inductive AssignOp where
  | assign
  | binary (op : CompoundOp)
  | logical (op : LogicalOp)
deriving DecidableEq, Repr

/-- The operator that is applied. -/
def CompoundOp.binary : CompoundOp → BinaryOp
  | .add => .add
  | .sub => .sub
  | .mul => .mul
  | .div => .div
  | .mod => .mod
  | .exp => .exp
  | .bitAnd => .bitAnd
  | .bitOr => .bitOr
  | .bitXor => .bitXor
  | .shiftLeft => .shiftLeft
  | .shiftRight => .shiftRight
  | .shiftRightUnsigned => .shiftRightUnsigned

instance : Coe CompoundOp BinaryOp := ⟨CompoundOp.binary⟩

/-- The operator an assignment applies to the value of its target and to its operand, if any. -/
def AssignOp.binary? : AssignOp → Option BinaryOp
  | .binary op => some op
  | .assign | .logical _ => none

/-! ## Literals -/

/-- The value of a literal.  `other` is what no script value is written as. -/
inductive LiteralValue where
  | null
  | bool (b : Bool)
  | number (x : Float)
  | string (s : String)
  | other (json : Json)

/-- A regular expression, as written. -/
structure RegexLiteral where
  pattern : String
  flags : String
deriving DecidableEq, Repr

/-- A literal.  Regular expressions and big integers have a field of their own. -/
structure Literal where
  value : LiteralValue
  regex : Option RegexLiteral
  bigint : Option String

/-- A piece of text in a template. -/
structure Quasi where
  /-- The text with escapes resolved, when they can be. -/
  cooked : Option String
  raw : String
  /-- Whether this is the last piece. -/
  tail : Bool
deriving DecidableEq, Repr

/-! ## Nodes -/

mutual

/-- An expression. -/
inductive Expr where
  | ident (name : String)
  | literal (literal : Literal)
  | this
  /-- A missing element is a hole. -/
  | array (elements : List (Option Expr))
  | object (members : List Member)
  | function (code : FunctionCode)
  | arrow (code : FunctionCode)
  | template (quasis : List Quasi) (values : List Expr)
  | unary (op : UnaryOp) (argument : Expr)
  /-- The flag says whether the value is the number before the update or after it. -/
  | update (op : UpdateOp) (givesNew : Bool) (argument : Expr)
  | binary (op : BinaryOp) (left right : Expr)
  | logical (op : LogicalOp) (left right : Expr)
  | assign (op : AssignOp) (target : Target) (value : Expr)
  | conditional (test consequent alternate : Expr)
  | sequence (items : List Expr)
  /-- `object.property` or, when computed, `object[property]`. -/
  | access (object property : Expr) (computed : Bool)
  | call (callee : Expr) (arguments : List Expr)
  | construct (callee : Expr) (arguments : List Expr)
  | spread (argument : Expr)
  | unsupported

/-- What an assignment writes to. -/
inductive Target where
  | ident (name : String)
  | access (object property : Expr) (computed : Bool)
  | unsupported

/-- A member of an object literal. -/
inductive Member where
  | property (key value : Expr) (kind : MemberKind) (computed method shorthand : Bool)
  | spread (argument : Expr)
  | unsupported

/-- What a declaration, a parameter or a catch clause binds. -/
inductive Pattern where
  | ident (name : String)
  /-- A parameter with a default. -/
  | default (target : Pattern) (value : Expr)
  /-- All remaining arguments. -/
  | rest (target : Pattern)
  | unsupported

/-- A function as written, whatever form it has. -/
structure FunctionCode where
  name : Option String
  params : List Pattern
  body : FunctionBody
  generator : Bool
  isAsync : Bool
  span : Option Span

/-- A block, or the one expression of a concise arrow function. -/
inductive FunctionBody where
  | block (body : List Stmt)
  | expression (value : Expr)

/-- A statement. -/
inductive Stmt where
  | declaration (kind : DeclarationKind) (declarators : List Declarator)
  | function (code : FunctionCode)
  | expression (value : Expr)
  | block (body : List Stmt)
  | empty
  | conditional (test : Expr) (consequent : Stmt) (alternate : Option Stmt)
  | forLoop (init : Option ForInit) (test update : Option Expr) (body : Stmt)
  | whileLoop (test : Expr) (body : Stmt)
  | doWhile (body : Stmt) (test : Expr)
  | switch (discriminant : Expr) (cases : List SwitchCase)
  | tryCatch (block : List Stmt) (handler : Option CatchClause) (finalizer : Option (List Stmt))
  | ret (value : Option Expr)
  | brk (label : Option String)
  | cont (label : Option String)
  | throw (value : Expr)
  | unsupported

/-- One target of a declaration, with its initial value. -/
structure Declarator where
  target : Pattern
  init : Option Expr

/-- What stands first in the head of a `for` loop. -/
inductive ForInit where
  | declaration (kind : DeclarationKind) (declarators : List Declarator)
  | expression (value : Expr)

/-- A case without a test is the default. -/
structure SwitchCase where
  test : Option Expr
  body : List Stmt

/-- A handler; without a parameter it does not see the fault. -/
structure CatchClause where
  param : Option Pattern
  body : List Stmt

end

instance : Inhabited Expr := ⟨.unsupported⟩

instance : Inhabited Stmt := ⟨.unsupported⟩

/-- A complete script. -/
structure Program where
  body : List Stmt

end ScriptTree
