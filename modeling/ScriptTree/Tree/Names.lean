import ScriptTree.Tree

/-!
# The names of a tree's types, operators and kinds

The spelling of everything that a tree names by a text.  Node types are listed in a fixed order,
since a tree may name a type by its position.
-/

namespace ScriptTree

/-! ## Operators and kinds -/

def DeclarationKind.names : List (String × DeclarationKind) :=
  [("var", .var), ("let", .lexical), ("const", .constant)]

def MemberKind.names : List (String × MemberKind) :=
  [("init", .init), ("get", .getter), ("set", .setter)]

def UnaryOp.names : List (String × UnaryOp) :=
  [("-", .minus), ("+", .plus), ("!", .not), ("~", .bitNot), ("typeof", .typeof), ("void", .void),
   ("delete", .delete)]

def UpdateOp.names : List (String × UpdateOp) :=
  [("++", .increment), ("--", .decrement)]

def BinaryOp.names : List (String × BinaryOp) :=
  [("+", .add), ("-", .sub), ("*", .mul), ("/", .div), ("%", .mod), ("**", .exp), ("==", .eq),
   ("!=", .notEq), ("===", .strictEq), ("!==", .strictNotEq), ("<", .lt), ("<=", .ltEq),
   (">", .gt), (">=", .gtEq), ("&", .bitAnd), ("|", .bitOr), ("^", .bitXor), ("<<", .shiftLeft),
   (">>", .shiftRight), (">>>", .shiftRightUnsigned), ("in", .isIn), ("instanceof", .instanceOf)]

def LogicalOp.names : List (String × LogicalOp) :=
  [("&&", .and), ("||", .or), ("??", .nullish)]

def AssignOp.names : List (String × AssignOp) :=
  [("=", .assign), ("+=", .binary .add), ("-=", .binary .sub), ("*=", .binary .mul),
   ("/=", .binary .div), ("%=", .binary .mod), ("**=", .binary .exp), ("&=", .binary .bitAnd),
   ("|=", .binary .bitOr), ("^=", .binary .bitXor), ("<<=", .binary .shiftLeft),
   (">>=", .binary .shiftRight), (">>>=", .binary .shiftRightUnsigned), ("&&=", .logical .and),
   ("||=", .logical .or), ("??=", .logical .nullish)]

/-! ## Node types -/

/-- The types of statements, in the order of their positions. -/
def Stmt.types : List String :=
  ["VariableDeclaration", "FunctionDeclaration", "ExpressionStatement", "BlockStatement",
   "EmptyStatement", "IfStatement", "ForStatement", "WhileStatement", "DoWhileStatement",
   "SwitchStatement", "TryStatement", "ReturnStatement", "BreakStatement", "ContinueStatement",
   "ThrowStatement"]

/-- The types of expressions, in the order of their positions. -/
def Expr.types : List String :=
  ["Identifier", "Literal", "ThisExpression", "ArrayExpression", "ObjectExpression",
   "FunctionExpression", "ArrowFunctionExpression", "TemplateLiteral", "UnaryExpression",
   "UpdateExpression", "BinaryExpression", "LogicalExpression", "AssignmentExpression",
   "ConditionalExpression", "SequenceExpression", "MemberExpression", "CallExpression",
   "NewExpression", "SpreadElement"]

def Member.types : List String := ["Property", "SpreadElement"]

def Target.types : List String := ["Identifier", "MemberExpression"]

def Pattern.types : List String := ["Identifier", "AssignmentPattern", "RestElement"]

/-- The type of a statement, `none` for one that is not supported. -/
def Stmt.type? : Stmt → Option String
  | .declaration .. => some "VariableDeclaration"
  | .function .. => some "FunctionDeclaration"
  | .expression .. => some "ExpressionStatement"
  | .block .. => some "BlockStatement"
  | .empty => some "EmptyStatement"
  | .conditional .. => some "IfStatement"
  | .forLoop .. => some "ForStatement"
  | .whileLoop .. => some "WhileStatement"
  | .doWhile .. => some "DoWhileStatement"
  | .switch .. => some "SwitchStatement"
  | .tryCatch .. => some "TryStatement"
  | .ret .. => some "ReturnStatement"
  | .brk .. => some "BreakStatement"
  | .cont .. => some "ContinueStatement"
  | .throw .. => some "ThrowStatement"
  | .unsupported => none

end ScriptTree
