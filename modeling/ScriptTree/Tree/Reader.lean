import ScriptTree.Json.Text
import ScriptTree.Tree.Names

/-!
# Reading trees from JSON

A node is read from an object with its fields, or from an array of its fields in their declared
order.  Fields that the node does not have are ignored, a field that it has may stand there only
once, and one that may be absent has a default.  The `type` of a node selects its kind; a type that
is not in the list makes the node unsupported.

Nodes nest, so the readers are built in levels: `Readers.ofDepth n` reads nodes whose JSON is nested
at most `n` deep.  A tree is read with the depth of its own JSON.
-/

namespace ScriptTree

/-- A way to read a value from JSON. -/
abbrev Reader (α : Type) := Json → Option α

namespace Reader

variable {α : Type}

/-! ## Parts of a node -/

def string : Reader String
  | .string s => some s
  | _ => none

def bool : Reader Bool
  | .bool b => some b
  | _ => none

/-- A natural number of at most 32 bits. -/
def word : Reader UInt32
  | .number (.integer n) => if 0 ≤ n ∧ n < UInt32.size then some (UInt32.ofNat n.toNat) else none
  | _ => none

/-- An array whose items are all read in the same way. -/
def list (item : Reader α) : Reader (List α)
  | .array items => items.mapM item
  | _ => none

/-- A value that may be null. -/
def nullable (value : Reader α) : Reader (Option α)
  | .null => some none
  | json => (value json).map some

/-- A value named by a text.  The name may also be the only key of an object, over a null or, when
`braces` allows it, over an empty object. -/
def named (names : List (String × α)) (braces : Bool) : Reader α
  | .string s => names.lookup s
  | .object [(s, .null)] => names.lookup s
  | .object [(s, .object [])] => if braces then names.lookup s else none
  | _ => none

/-! ## Fields -/

/-- The fields of a record with the given names: from an object, where each name may stand only
once, or from an array with at most one item per name. -/
def record (names : List String) : Reader (String → Option Json)
  | .object fields =>
      if names.all fun name => (Json.valuesOf name fields).length ≤ 1 then
        some fun name => (Json.valuesOf name fields).head?
      else none
  | .array items =>
      if items.length ≤ names.length then some fun name => (names.zip items).lookup name else none
  | _ => none

/-- A field that must be there. -/
def required (value : Reader α) (field : Option Json) : Option α := field.bind value

/-- A field that may be null or absent. -/
def optional (value : Reader α) : Option Json → Option (Option α)
  | none => some none
  | some json => nullable value json

/-- A field with a default when it is absent. -/
def defaulted (default : α) (value : Reader α) : Option Json → Option α
  | none => some default
  | some json => value json

/-! ## Types -/

/-- The type a node names.  When `positions` allows it, a natural number names the type at that
position, and a number past the end a type that does not exist. -/
def typeName (types : List String) (positions : Bool) : Reader String
  | .string s => some s
  | .number (.integer n) => if positions ∧ 0 ≤ n then some (types[n.toNat]?.getD "") else none
  | _ => none

/-- Splits a node into its type and its fields. -/
def tagged (types : List String) (positions : Bool) : Reader (String × Json)
  | .object fields =>
      match Json.valuesOf "type" fields with
      | [type] =>
          (typeName types positions type).map
            (·, .object (fields.filter fun field => field.1 ≠ "type"))
      | _ => none
  | .array (type :: items) => (typeName types positions type).map (·, .array items)
  | _ => none

/-- A node without fields.  As an array it is empty; as an object it may hold anything. -/
def fieldless (value : α) : Reader α
  | .object _ => some value
  | .array [] => some value
  | _ => none

end Reader

open Reader

/-! ## Records without nodes -/

def Position.read : Reader Position := fun json => do
  let field ← record ["line", "column"] json
  return ⟨← required word (field "line"), ← required word (field "column")⟩

def Span.read : Reader Span := fun json => do
  let field ← record ["start", "end"] json
  return ⟨← required Position.read (field "start"), ← required Position.read (field "end")⟩

/-- The name of an identifier. -/
def identifierName : Reader String := fun json => do
  let field ← record ["name"] json
  required string (field "name")

/-- Any JSON is the value of some literal. -/
def LiteralValue.read : Reader LiteralValue
  | .null => some .null
  | .bool b => some (.bool b)
  | .number n => some (.number n.toFloat)
  | .string s => some (.string s)
  | json => some (.other json)

def RegexLiteral.read : Reader RegexLiteral := fun json => do
  let field ← record ["pattern", "flags"] json
  return ⟨← required string (field "pattern"), ← required string (field "flags")⟩

def Literal.read : Reader Literal := fun json => do
  let field ← record ["value", "regex", "bigint"] json
  return {
    value := ← defaulted .null LiteralValue.read (field "value")
    regex := ← optional RegexLiteral.read (field "regex")
    bigint := ← optional string (field "bigint") }

def Quasi.read : Reader Quasi := fun json => do
  let field ← record ["value", "tail"] json
  let text ← (field "value").bind (record ["cooked", "raw"])
  return {
    cooked := ← optional string (text "cooked")
    raw := ← required string (text "raw")
    tail := ← defaulted false bool (field "tail") }

/-! ## Nodes -/

/-- Readers for the nodes below the one being read. -/
structure Readers where
  expr : Reader Expr
  stmt : Reader Stmt
  pattern : Reader Pattern

namespace Readers

/-- The statements of a block. -/
def block (r : Readers) : Reader (List Stmt) := fun json => do
  let field ← record ["body"] json
  required (list r.stmt) (field "body")

/-- A block when it reads as one, and an expression otherwise. -/
def functionBody (r : Readers) : Reader FunctionBody := fun json =>
  match r.block json with
  | some body => some (.block body)
  | none => (r.expr json).map .expression

/-- A function in any of its forms. -/
def functionCode (r : Readers) : Reader FunctionCode := fun json => do
  let field ← record ["id", "params", "body", "generator", "async", "loc"] json
  return {
    name := ← optional identifierName (field "id")
    params := ← required (list r.pattern) (field "params")
    body := ← required r.functionBody (field "body")
    generator := ← defaulted false bool (field "generator")
    isAsync := ← defaulted false bool (field "async")
    span := ← optional Span.read (field "loc") }

/-- One target of a declaration. -/
def declarator (r : Readers) : Reader Declarator := fun json => do
  let field ← record ["id", "init"] json
  return ⟨← required r.pattern (field "id"), ← optional r.expr (field "init")⟩

/-- The kind and the declarators of a declaration. -/
def declaration (r : Readers) (braces : Bool) : Reader (DeclarationKind × List Declarator) :=
  fun json => do
    let field ← record ["kind", "declarations"] json
    return (← required (named DeclarationKind.names braces) (field "kind"),
      ← required (list r.declarator) (field "declarations"))

/-- A declaration when it reads as one, and an expression otherwise. -/
def forInit (r : Readers) : Reader ForInit := fun json =>
  match r.declaration false json with
  | some (kind, declarators) => some (.declaration kind declarators)
  | none => (r.expr json).map .expression

/-- A case of a `switch`, the default one when it has no test. -/
def switchCase (r : Readers) : Reader SwitchCase := fun json => do
  let field ← record ["test", "consequent"] json
  return ⟨← optional r.expr (field "test"), ← required (list r.stmt) (field "consequent")⟩

/-- The handler of a `try` statement. -/
def catchClause (r : Readers) : Reader CatchClause := fun json => do
  let field ← record ["param", "body"] json
  return ⟨← optional r.pattern (field "param"), ← required r.block (field "body")⟩

/-- The single field `argument` of a node. -/
def argument (r : Readers) : Reader Expr := fun json => do
  let field ← record ["argument"] json
  required r.expr (field "argument")

/-- The object, the property and the computed flag of a member access. -/
def access (r : Readers) : Reader (Expr × Expr × Bool) := fun json => do
  let field ← record ["object", "property", "computed"] json
  return (← required r.expr (field "object"), ← required r.expr (field "property"),
    ← defaulted false bool (field "computed"))

/-- The left side of an assignment. -/
def target (r : Readers) : Reader Target := fun json => do
  let (type, json) ← tagged Target.types true json
  match type with
  | "Identifier" => return .ident (← identifierName json)
  | "MemberExpression" =>
      let (object, property, computed) ← r.access json
      return .access object property computed
  | _ => fieldless .unsupported json

/-- A member of an object literal. -/
def member (r : Readers) : Reader Member := fun json => do
  let (type, json) ← tagged Member.types true json
  match type with
  | "Property" =>
      let field ← record ["key", "value", "kind", "computed", "method", "shorthand"] json
      return .property (← required r.expr (field "key")) (← required r.expr (field "value"))
        (← defaulted .init (named MemberKind.names true) (field "kind"))
        (← defaulted false bool (field "computed")) (← defaulted false bool (field "method"))
        (← defaulted false bool (field "shorthand"))
  | "SpreadElement" => return .spread (← r.argument json)
  | _ => fieldless .unsupported json

/-- A pattern node. -/
def patternNode (r : Readers) : Reader Pattern := fun json => do
  let (type, json) ← tagged Pattern.types true json
  match type with
  | "Identifier" => return .ident (← identifierName json)
  | "AssignmentPattern" =>
      let field ← record ["left", "right"] json
      return .default (← required r.pattern (field "left")) (← required r.expr (field "right"))
  | "RestElement" =>
      let field ← record ["argument"] json
      return .rest (← required r.pattern (field "argument"))
  | _ => fieldless .unsupported json

/-- An expression node; `positions` says whether its type may be named by a position. -/
def exprNode (r : Readers) (positions : Bool) : Reader Expr := fun json => do
  let (type, json) ← tagged Expr.types positions json
  match type with
  | "Identifier" => return .ident (← identifierName json)
  | "Literal" => return .literal (← Literal.read json)
  | "ThisExpression" => fieldless .this json
  | "ArrayExpression" =>
      let field ← record ["elements"] json
      return .array (← required (list (nullable r.expr)) (field "elements"))
  | "ObjectExpression" =>
      let field ← record ["properties"] json
      return .object (← required (list r.member) (field "properties"))
  | "FunctionExpression" => return .function (← r.functionCode json)
  | "ArrowFunctionExpression" => return .arrow (← r.functionCode json)
  | "TemplateLiteral" =>
      let field ← record ["quasis", "expressions"] json
      return .template (← required (list Quasi.read) (field "quasis"))
        (← required (list r.expr) (field "expressions"))
  | "UnaryExpression" =>
      let field ← record ["operator", "argument"] json
      return .unary (← required (named UnaryOp.names true) (field "operator"))
        (← required r.expr (field "argument"))
  | "UpdateExpression" =>
      let field ← record ["operator", "prefix", "argument"] json
      return .update (← required (named UpdateOp.names true) (field "operator"))
        (← required bool (field "prefix")) (← required r.expr (field "argument"))
  | "BinaryExpression" =>
      let field ← record ["operator", "left", "right"] json
      return .binary (← required (named BinaryOp.names true) (field "operator"))
        (← required r.expr (field "left")) (← required r.expr (field "right"))
  | "LogicalExpression" =>
      let field ← record ["operator", "left", "right"] json
      return .logical (← required (named LogicalOp.names true) (field "operator"))
        (← required r.expr (field "left")) (← required r.expr (field "right"))
  | "AssignmentExpression" =>
      let field ← record ["operator", "left", "right"] json
      return .assign (← required (named AssignOp.names true) (field "operator"))
        (← required r.target (field "left")) (← required r.expr (field "right"))
  | "ConditionalExpression" =>
      let field ← record ["test", "consequent", "alternate"] json
      return .conditional (← required r.expr (field "test"))
        (← required r.expr (field "consequent")) (← required r.expr (field "alternate"))
  | "SequenceExpression" =>
      let field ← record ["expressions"] json
      return .sequence (← required (list r.expr) (field "expressions"))
  | "MemberExpression" =>
      let (object, property, computed) ← r.access json
      return .access object property computed
  | "CallExpression" =>
      let field ← record ["callee", "arguments"] json
      return .call (← required r.expr (field "callee"))
        (← required (list r.expr) (field "arguments"))
  | "NewExpression" =>
      let field ← record ["callee", "arguments"] json
      return .construct (← required r.expr (field "callee"))
        (← defaulted [] (list r.expr) (field "arguments"))
  | "SpreadElement" => return .spread (← r.argument json)
  | _ => fieldless .unsupported json

/-- A statement node; `positions` says whether its type may be named by a position. -/
def stmtNode (r : Readers) (positions : Bool) : Reader Stmt := fun json => do
  let (type, json) ← tagged Stmt.types positions json
  match type with
  | "VariableDeclaration" =>
      let (kind, declarators) ← r.declaration true json
      return .declaration kind declarators
  | "FunctionDeclaration" => return .function (← r.functionCode json)
  | "ExpressionStatement" =>
      let field ← record ["expression"] json
      return .expression (← required r.expr (field "expression"))
  | "BlockStatement" => return .block (← r.block json)
  | "EmptyStatement" => fieldless .empty json
  | "IfStatement" =>
      let field ← record ["test", "consequent", "alternate"] json
      return .conditional (← required r.expr (field "test"))
        (← required r.stmt (field "consequent")) (← optional r.stmt (field "alternate"))
  | "ForStatement" =>
      let field ← record ["init", "test", "update", "body"] json
      return .forLoop (← optional r.forInit (field "init")) (← optional r.expr (field "test"))
        (← optional r.expr (field "update")) (← required r.stmt (field "body"))
  | "WhileStatement" =>
      let field ← record ["test", "body"] json
      return .whileLoop (← required r.expr (field "test")) (← required r.stmt (field "body"))
  | "DoWhileStatement" =>
      let field ← record ["body", "test"] json
      return .doWhile (← required r.stmt (field "body")) (← required r.expr (field "test"))
  | "SwitchStatement" =>
      let field ← record ["discriminant", "cases"] json
      return .switch (← required r.expr (field "discriminant"))
        (← required (list r.switchCase) (field "cases"))
  | "TryStatement" =>
      let field ← record ["block", "handler", "finalizer"] json
      return .tryCatch (← required r.block (field "block"))
        (← optional r.catchClause (field "handler")) (← optional r.block (field "finalizer"))
  | "ReturnStatement" =>
      let field ← record ["argument"] json
      return .ret (← optional r.expr (field "argument"))
  | "BreakStatement" =>
      let field ← record ["label"] json
      return .brk (← optional identifierName (field "label"))
  | "ContinueStatement" =>
      let field ← record ["label"] json
      return .cont (← optional identifierName (field "label"))
  | "ThrowStatement" => return .throw (← r.argument json)
  | _ => fieldless .unsupported json

/-- Readers for nodes whose JSON is nested at most so deep. -/
def ofDepth : Nat → Readers
  | 0 => ⟨fun _ => none, fun _ => none, fun _ => none⟩
  | n + 1 =>
      let below := ofDepth n
      ⟨below.exprNode true, below.stmtNode true, below.patternNode⟩

end Readers

/-! ## Whole trees -/

/-- Reads one expression.  The type of the outermost node is always a text. -/
def Expr.read : Reader Expr := fun json => (Readers.ofDepth json.depth).exprNode false json

/-- Reads one statement.  The type of the outermost node is always a text. -/
def Stmt.read : Reader Stmt := fun json => (Readers.ofDepth json.depth).stmtNode false json

/-- Reads a program.  The type of an outermost statement is always a text. -/
def Program.read : Reader Program := fun json => do
  let field ← record ["body"] json
  return ⟨← required (list Stmt.read) (field "body")⟩

/-- How deeply the arrays and objects of a JSON text may be nested. -/
def maxTextDepth : Nat := 127

/-- Reads a program from JSON text.  Other fields of the outermost object are skipped, whatever
their depth. -/
def Program.ofText? (text : String) : Option Program := do
  let value ← Json.parse? text
  Program.read (← value.checkKnown? maxTextDepth ["body"])

end ScriptTree
