import Mathlib.Data.List.Forall2
import ScriptTree.Proofs.OperatorSpellings
import ScriptTree.Tree.Reader

/-!
# Written trees

How a tree is written as JSON.  A node is an object with one field for each of its parts, and
`FieldRule` says what may stand there: a part that is missing is left out or null, and a part that
is the default may be left out.  A node that belongs to a family has its `type` besides, and one that
is not supported has a type that the family does not know.

The fields stand in any order, and other fields may stand between them (`Json.Follows`), with names
that no rule of the node has.  Only three names are kept free everywhere, since they tell a block or
a declaration from an expression (`decidingNames`).

Nodes nest, so `Forms.ofDepth n` says how trees that are nested at most `n` deep are written.  Every
tree has a written form if each of its literals does (`Program.exists_written`): a number has to be
finite, and a value that is no script value has to be an array or an object.
-/

namespace ScriptTree

/-! ## Fields -/

/-- A rule for one field of an object: what may stand under its name, if anything. -/
structure FieldRule where
  name : String
  holds : Option Json → Prop

namespace FieldRule

variable {α : Type}

/-- A field that is there. -/
def present (name : String) (form : Json → Prop) : FieldRule :=
  ⟨name, fun field => ∃ json, field = some json ∧ form json⟩

/-- A field that is absent or null when there is nothing to write. -/
def optional (name : String) (form : α → Json → Prop) (value : Option α) : FieldRule :=
  ⟨name, fun field =>
    match value with
    | some a => ∃ json, field = some json ∧ form a json
    | none => field = none ∨ field = some .null⟩

/-- A field that may be absent when it has its default. -/
def defaulted (name : String) (default : α) (form : α → Json → Prop) (value : α) : FieldRule :=
  ⟨name, fun field =>
    (field = none ∧ value = default) ∨ ∃ json, field = some json ∧ form value json⟩

/-- Something may stand in the field, or nothing. -/
def Fillable (rule : FieldRule) : Prop := ∃ field, rule.holds field

@[simp] theorem present_name (name : String) (form : Json → Prop) :
    (present name form).name = name := rfl

@[simp] theorem optional_name (name : String) (form : α → Json → Prop) (value : Option α) :
    (FieldRule.optional name form value).name = name := rfl

@[simp] theorem defaulted_name (name : String) (default value : α) (form : α → Json → Prop) :
    (defaulted name default form value).name = name := rfl

@[simp] theorem present_fillable {name : String} {form : Json → Prop} :
    (present name form).Fillable ↔ ∃ json, form json := by
  simp [Fillable, present]

@[simp] theorem optional_fillable {name : String} {form : α → Json → Prop} {value : Option α} :
    (FieldRule.optional name form value).Fillable ↔ ∀ a, value = some a → ∃ json, form a json := by
  cases value with
  | none => simp [Fillable, FieldRule.optional]
  | some a => simp [Fillable, FieldRule.optional]

@[simp] theorem defaulted_fillable {name : String} {default value : α}
    {form : α → Json → Prop} :
    (defaulted name default form value).Fillable ↔ value = default ∨ ∃ json, form value json := by
  simp [Fillable, defaulted, exists_or]

end FieldRule

/-! ## Objects -/

/-- The names that tell a block and a declaration from an expression. -/
def decidingNames : List String := ["body", "kind", "declarations"]

/-- An object that has a field at most once for each rule, as the rule says.  Of the names that
decide, it has none but those of its rules, and it may have any other field. -/
def Json.Follows (rules : List FieldRule) : Json → Prop
  | .object fields =>
      (∀ rule ∈ rules, (Json.valuesOf rule.name fields).length ≤ 1 ∧
        rule.holds (Json.valuesOf rule.name fields).head?) ∧
      ∀ field ∈ fields, field.1 ∈ decidingNames → field.1 ∈ rules.map FieldRule.name
  | _ => False

/-- A text. -/
def textForm (s : String) (json : Json) : Prop := json = .string s

/-- A node of a family: it has its own type, or one that the family does not know. -/
def Json.Tagged (types : List String) (type? : Option String) (rules : List FieldRule)
    (json : Json) : Prop :=
  ∃ type, (∀ own, type? = some own → type = own) ∧ (type? = none → type ∉ types) ∧
    json.Follows (.present "type" (textForm type) :: rules)

namespace Json

@[simp] theorem valuesOf_nil (name : String) : valuesOf name [] = [] := rfl

theorem valuesOf_cons (name : String) (field : String × Json) (fields : List (String × Json)) :
    valuesOf name (field :: fields) =
      if field.1 = name then field.2 :: valuesOf name fields else valuesOf name fields := by
  by_cases h : field.1 = name
  · rw [if_pos h, valuesOf, List.filter_cons_of_pos (by simpa using h)]
    rfl
  · rw [if_neg h, valuesOf, List.filter_cons_of_neg (by simpa using h)]
    rfl

theorem valuesOf_eq_nil {name : String} {fields : List (String × Json)}
    (h : name ∉ fields.map Prod.fst) : valuesOf name fields = [] := by
  induction fields with
  | nil => rfl
  | cons field fields ih =>
      rw [List.map_cons, List.mem_cons, not_or] at h
      rw [valuesOf_cons, if_neg (Ne.symm h.1), ih h.2]

/-- Rules with different names can be followed together. -/
theorem exists_fields {rules : List FieldRule} (fillable : ∀ rule ∈ rules, rule.Fillable)
    (nodup : (rules.map FieldRule.name).Nodup) :
    ∃ fields : List (String × Json),
      (∀ rule ∈ rules, (valuesOf rule.name fields).length ≤ 1 ∧
        rule.holds (valuesOf rule.name fields).head?) ∧
      ∀ field ∈ fields, field.1 ∈ rules.map FieldRule.name := by
  induction rules with
  | nil => exact ⟨[], List.forall_mem_nil _, List.forall_mem_nil _⟩
  | cons rule rules ih =>
      rw [List.map_cons, List.nodup_cons] at nodup
      obtain ⟨⟨value, holds⟩, fillable⟩ := List.forall_mem_cons.mp fillable
      obtain ⟨fields, follows, known⟩ := ih fillable nodup.2
      have absent : rule.name ∉ fields.map Prod.fst := by
        intro h
        obtain ⟨field, hf, same⟩ := List.mem_map.mp h
        exact nodup.1 (same ▸ known field hf)
      have knownBy (field : String × Json) (hf : field ∈ fields) :
          field.1 ∈ (rule :: rules).map FieldRule.name := List.mem_cons_of_mem _ (known field hf)
      cases value with
      | none =>
          refine ⟨fields, List.forall_mem_cons.mpr ⟨?_, follows⟩, knownBy⟩
          rw [valuesOf_eq_nil absent]
          exact ⟨Nat.zero_le 1, holds⟩
      | some json =>
          refine ⟨(rule.name, json) :: fields, List.forall_mem_cons.mpr ⟨?_, ?_⟩, ?_⟩
          · rw [valuesOf_cons, if_pos rfl, valuesOf_eq_nil absent]
            exact ⟨Nat.le_refl 1, holds⟩
          · intro other hother
            have ne : rule.name ≠ other.name := by
              intro same
              exact nodup.1 (same ▸ List.mem_map_of_mem hother)
            rw [valuesOf_cons, if_neg ne]
            exact follows other hother
          · exact List.forall_mem_cons.mpr ⟨List.mem_cons_self, knownBy⟩

theorem exists_follows {rules : List FieldRule} (fillable : ∀ rule ∈ rules, rule.Fillable)
    (nodup : (rules.map FieldRule.name).Nodup) : ∃ json : Json, json.Follows rules := by
  obtain ⟨fields, follows, known⟩ := exists_fields fillable nodup
  exact ⟨.object fields, follows, fun field hf _ => known field hf⟩

theorem exists_tagged {types : List String} {type? : Option String} {rules : List FieldRule}
    (unknown : "" ∉ types) (fillable : ∀ rule ∈ rules, rule.Fillable)
    (nodup : ("type" :: rules.map FieldRule.name).Nodup) :
    ∃ json : Json, json.Tagged types type? rules := by
  have typed (type : String) : ∃ json : Json,
      json.Follows (.present "type" (textForm type) :: rules) := by
    refine exists_follows (List.forall_mem_cons.mpr ⟨?_, fillable⟩) nodup
    exact FieldRule.present_fillable.mpr ⟨_, rfl⟩
  cases type? with
  | none =>
      obtain ⟨json, follows⟩ := typed ""
      refine ⟨json, "", ?_, fun _ => unknown, follows⟩
      intro own h
      cases h
  | some own =>
      obtain ⟨json, follows⟩ := typed own
      refine ⟨json, own, fun _ h => Option.some.inj h, ?_, follows⟩
      intro h
      cases h

end Json

/-! ## Parts without nodes -/

section Parts

variable {α : Type}

def flagForm (b : Bool) (json : Json) : Prop := json = .bool b

/-- A natural number of 32 bits. -/
def wordForm (n : UInt32) (json : Json) : Prop := json = .number (.integer n.toNat)

@[simp] theorem exists_textForm (s : String) : ∃ json, textForm s json := ⟨_, rfl⟩

/-- The spelling of an operator or a kind. -/
def spelledForm (spelling : α → String) (a : α) (json : Json) : Prop := json = .string (spelling a)

@[simp] theorem exists_spelledForm (spelling : α → String) (a : α) :
    ∃ json, spelledForm spelling a json := ⟨_, rfl⟩

@[simp] theorem exists_flagForm (b : Bool) : ∃ json, flagForm b json := ⟨_, rfl⟩

@[simp] theorem exists_wordForm (n : UInt32) : ∃ json, wordForm n json := ⟨_, rfl⟩

/-- An array with one item for each value. -/
def listForm (form : α → Json → Prop) (values : List α) (json : Json) : Prop :=
  ∃ items, json = .array items ∧ List.Forall₂ form values items

/-- A value, or a null where there is none. -/
def nullableForm (form : α → Json → Prop) : Option α → Json → Prop
  | some a, json => form a json
  | none, json => json = .null

theorem exists_listForm {form : α → Json → Prop} {values : List α}
    (h : ∀ a ∈ values, ∃ json, form a json) : ∃ json, listForm form values json := by
  suffices items : ∃ items, List.Forall₂ form values items by
    obtain ⟨items, written⟩ := items
    exact ⟨.array items, items, rfl, written⟩
  induction values with
  | nil => exact ⟨[], .nil⟩
  | cons a values ih =>
      obtain ⟨⟨json, hj⟩, h⟩ := List.forall_mem_cons.mp h
      obtain ⟨items, written⟩ := ih h
      exact ⟨json :: items, .cons hj written⟩

end Parts

def Position.form (p : Position) : Json → Prop :=
  Json.Follows [.present "line" (wordForm p.line), .present "column" (wordForm p.column)]

def Span.form (span : Span) : Json → Prop :=
  Json.Follows [.present "start" span.start.form, .present "end" span.stop.form]

/-- The rule for the name of an identifier. -/
def nameRules (name : String) : List FieldRule := [.present "name" (textForm name)]

def identifierForm (name : String) : Json → Prop := Json.Follows (nameRules name)

/-- The numbers that JSON has. -/
def JsonNumber.isFinite : JsonNumber → Bool
  | .integer _ => true
  | .real x => x.isFinite

/-- Arrays and objects. -/
def Json.isCollection : Json → Bool
  | .array _ | .object _ => true
  | _ => false

/-- A number is written as any JSON number that has its value. -/
def LiteralValue.form : LiteralValue → Json → Prop
  | .null, json => json = .null
  | .bool b, json => json = .bool b
  | .number x, json => ∃ n, json = .number n ∧ n.isFinite = true ∧ n.toFloat = x
  | .string s, json => json = .string s
  | .other value, json => json = value ∧ value.isCollection = true

/-- Whether a literal has a written form: its number is finite, and what is no script value is an
array or an object. -/
def LiteralValue.isWritable : LiteralValue → Bool
  | .number x => x.isFinite
  | .other value => value.isCollection
  | .null | .bool _ | .string _ => true

theorem LiteralValue.exists_form {v : LiteralValue} (h : v.isWritable = true) :
    ∃ json, v.form json := by
  cases v with
  | null => exact ⟨_, rfl⟩
  | bool b => exact ⟨_, rfl⟩
  | number x => exact ⟨.number (.real x), .real x, rfl, h, rfl⟩
  | string s => exact ⟨_, rfl⟩
  | other value => exact ⟨value, rfl, h⟩

def RegexLiteral.form (regex : RegexLiteral) : Json → Prop :=
  Json.Follows [.present "pattern" (textForm regex.pattern), .present "flags" (textForm regex.flags)]

def Literal.rules (l : Literal) : List FieldRule :=
  [.defaulted "value" .null LiteralValue.form l.value, .optional "regex" RegexLiteral.form l.regex,
   .optional "bigint" textForm l.bigint]

def Quasi.form (quasi : Quasi) : Json → Prop :=
  Json.Follows
    [.present "value" (Json.Follows
      [.optional "cooked" textForm quasi.cooked, .present "raw" (textForm quasi.raw)]),
     .defaulted "tail" false flagForm quasi.tail]

/-! ## The types of nodes -/

/-- The type of an expression, `none` for one that is not supported. -/
def Expr.type? : Expr → Option String
  | .ident .. => some "Identifier"
  | .literal .. => some "Literal"
  | .this => some "ThisExpression"
  | .array .. => some "ArrayExpression"
  | .object .. => some "ObjectExpression"
  | .function .. => some "FunctionExpression"
  | .arrow .. => some "ArrowFunctionExpression"
  | .template .. => some "TemplateLiteral"
  | .unary .. => some "UnaryExpression"
  | .update .. => some "UpdateExpression"
  | .binary .. => some "BinaryExpression"
  | .logical .. => some "LogicalExpression"
  | .assign .. => some "AssignmentExpression"
  | .conditional .. => some "ConditionalExpression"
  | .sequence .. => some "SequenceExpression"
  | .access .. => some "MemberExpression"
  | .call .. => some "CallExpression"
  | .construct .. => some "NewExpression"
  | .spread .. => some "SpreadElement"
  | .unsupported => none

def Target.type? : Target → Option String
  | .ident .. => some "Identifier"
  | .access .. => some "MemberExpression"
  | .unsupported => none

def Member.type? : Member → Option String
  | .property .. => some "Property"
  | .spread .. => some "SpreadElement"
  | .unsupported => none

def Pattern.type? : Pattern → Option String
  | .ident .. => some "Identifier"
  | .default .. => some "AssignmentPattern"
  | .rest .. => some "RestElement"
  | .unsupported => none

/-! ## Nodes -/

/-- How the nodes below the one at hand are written. -/
structure Forms where
  expr : Expr → Json → Prop
  stmt : Stmt → Json → Prop
  pattern : Pattern → Json → Prop

namespace Forms

variable (w : Forms)

def blockRules (body : List Stmt) : List FieldRule := [.present "body" (listForm w.stmt body)]

/-- A block where nothing else can stand.  It needs no type. -/
def block (body : List Stmt) : Json → Prop := Json.Follows (w.blockRules body)

def functionBody : FunctionBody → Json → Prop
  | .block body => w.block body
  | .expression value => w.expr value

def functionRules (code : FunctionCode) : List FieldRule :=
  [.optional "id" identifierForm code.name, .present "params" (listForm w.pattern code.params),
   .present "body" (w.functionBody code.body), .defaulted "generator" false flagForm code.generator,
   .defaulted "async" false flagForm code.isAsync, .optional "loc" Span.form code.span]

def declarator (d : Declarator) : Json → Prop :=
  Json.Follows [.present "id" (w.pattern d.target), .optional "init" w.expr d.init]

def declarationRules (kind : DeclarationKind) (declarators : List Declarator) : List FieldRule :=
  [.present "kind" (spelledForm DeclarationKind.spelling kind),
   .present "declarations" (listForm w.declarator declarators)]

def forInit : ForInit → Json → Prop
  | .declaration kind declarators => Json.Follows (w.declarationRules kind declarators)
  | .expression value => w.expr value

def switchCase (clause : SwitchCase) : Json → Prop :=
  Json.Follows
    [.optional "test" w.expr clause.test, .present "consequent" (listForm w.stmt clause.body)]

def catchClause (clause : CatchClause) : Json → Prop :=
  Json.Follows
    [.optional "param" w.pattern clause.param, .present "body" (w.block clause.body)]

def argumentRules (e : Expr) : List FieldRule := [.present "argument" (w.expr e)]

def accessRules (object property : Expr) (computed : Bool) : List FieldRule :=
  [.present "object" (w.expr object), .present "property" (w.expr property),
   .defaulted "computed" false flagForm computed]

def targetRules : Target → List FieldRule
  | .ident name => nameRules name
  | .access object property computed => w.accessRules object property computed
  | .unsupported => []

def target (t : Target) : Json → Prop := Json.Tagged Target.types t.type? (w.targetRules t)

def memberRules : Member → List FieldRule
  | .property key value kind computed method shorthand =>
      [.present "key" (w.expr key), .present "value" (w.expr value),
       .defaulted "kind" .init (spelledForm MemberKind.spelling) kind,
       .defaulted "computed" false flagForm computed, .defaulted "method" false flagForm method,
       .defaulted "shorthand" false flagForm shorthand]
  | .spread argument => w.argumentRules argument
  | .unsupported => []

def member (m : Member) : Json → Prop := Json.Tagged Member.types m.type? (w.memberRules m)

def patternRules : Pattern → List FieldRule
  | .ident name => nameRules name
  | .default target value => [.present "left" (w.pattern target), .present "right" (w.expr value)]
  | .rest target => [.present "argument" (w.pattern target)]
  | .unsupported => []

def patternNode (p : Pattern) : Json → Prop := Json.Tagged Pattern.types p.type? (w.patternRules p)

def exprRules : Expr → List FieldRule
  | .ident name => nameRules name
  | .literal l => l.rules
  | .this | .unsupported => []
  | .array elements => [.present "elements" (listForm (nullableForm w.expr) elements)]
  | .object members => [.present "properties" (listForm w.member members)]
  | .function code | .arrow code => w.functionRules code
  | .template quasis values =>
      [.present "quasis" (listForm Quasi.form quasis),
       .present "expressions" (listForm w.expr values)]
  | .unary op e =>
      [.present "operator" (spelledForm UnaryOp.spelling op), .present "argument" (w.expr e)]
  | .update op givesNew e =>
      [.present "operator" (spelledForm UpdateOp.spelling op), .present "prefix" (flagForm givesNew),
       .present "argument" (w.expr e)]
  | .binary op left right =>
      [.present "operator" (spelledForm BinaryOp.spelling op), .present "left" (w.expr left),
       .present "right" (w.expr right)]
  | .logical op left right =>
      [.present "operator" (spelledForm LogicalOp.spelling op), .present "left" (w.expr left),
       .present "right" (w.expr right)]
  | .assign op target value =>
      [.present "operator" (spelledForm AssignOp.spelling op), .present "left" (w.target target),
       .present "right" (w.expr value)]
  | .conditional test consequent alternate =>
      [.present "test" (w.expr test), .present "consequent" (w.expr consequent),
       .present "alternate" (w.expr alternate)]
  | .sequence items => [.present "expressions" (listForm w.expr items)]
  | .access object property computed => w.accessRules object property computed
  | .call callee arguments =>
      [.present "callee" (w.expr callee), .present "arguments" (listForm w.expr arguments)]
  | .construct callee arguments =>
      [.present "callee" (w.expr callee), .defaulted "arguments" [] (listForm w.expr) arguments]
  | .spread argument => w.argumentRules argument

def exprNode (e : Expr) : Json → Prop := Json.Tagged Expr.types e.type? (w.exprRules e)

def stmtRules : Stmt → List FieldRule
  | .declaration kind declarators => w.declarationRules kind declarators
  | .function code => w.functionRules code
  | .expression value => [.present "expression" (w.expr value)]
  | .block body => w.blockRules body
  | .empty | .unsupported => []
  | .conditional test consequent alternate =>
      [.present "test" (w.expr test), .present "consequent" (w.stmt consequent),
       .optional "alternate" w.stmt alternate]
  | .forLoop init test update body =>
      [.optional "init" w.forInit init, .optional "test" w.expr test,
       .optional "update" w.expr update, .present "body" (w.stmt body)]
  | .whileLoop test body => [.present "test" (w.expr test), .present "body" (w.stmt body)]
  | .doWhile body test => [.present "body" (w.stmt body), .present "test" (w.expr test)]
  | .switch discriminant cases =>
      [.present "discriminant" (w.expr discriminant),
       .present "cases" (listForm w.switchCase cases)]
  | .tryCatch block handler finalizer =>
      [.present "block" (w.block block), .optional "handler" w.catchClause handler,
       .optional "finalizer" w.block finalizer]
  | .ret value => [.optional "argument" w.expr value]
  | .brk label | .cont label => [.optional "label" identifierForm label]
  | .throw value => w.argumentRules value

def stmtNode (s : Stmt) : Json → Prop := Json.Tagged Stmt.types s.type? (w.stmtRules s)

/-! No two rules of a node are for the same field. -/

theorem nodup_targetRules (t : Target) :
    ("type" :: (w.targetRules t).map FieldRule.name).Nodup := by
  cases t <;> simp [targetRules, nameRules, accessRules]

theorem nodup_memberRules (m : Member) :
    ("type" :: (w.memberRules m).map FieldRule.name).Nodup := by
  cases m <;> simp [memberRules, argumentRules]

theorem nodup_patternRules (p : Pattern) :
    ("type" :: (w.patternRules p).map FieldRule.name).Nodup := by
  cases p <;> simp [patternRules, nameRules]

theorem nodup_exprRules (e : Expr) : ("type" :: (w.exprRules e).map FieldRule.name).Nodup := by
  cases e <;>
    simp [exprRules, nameRules, Literal.rules, functionRules, accessRules, argumentRules]

theorem nodup_stmtRules (s : Stmt) : ("type" :: (w.stmtRules s).map FieldRule.name).Nodup := by
  cases s <;> simp [stmtRules, declarationRules, functionRules, blockRules, argumentRules]

/-- How nodes that are nested at most so deep are written. -/
def ofDepth : Nat → Forms
  | 0 => ⟨fun _ _ => False, fun _ _ => False, fun _ _ => False⟩
  | n + 1 => ⟨(ofDepth n).exprNode, (ofDepth n).stmtNode, (ofDepth n).patternNode⟩

end Forms

/-- The JSON is a written form of the program. -/
def Program.Written (program : Program) (json : Json) : Prop :=
  ∃ n, (Forms.ofDepth n).block program.body json

/-! ## Trees that can be written -/

mutual

/-- Whether the literals of an expression can be written. -/
def Expr.isWritable : Expr → Bool
  | .ident _ | .this | .unsupported => true
  | .literal l => l.value.isWritable
  | .array elements => writableElements elements
  | .object members => writableMembers members
  | .function code | .arrow code => code.isWritable
  | .template _ values => writableExprs values
  | .unary _ argument | .update _ _ argument | .spread argument => argument.isWritable
  | .binary _ left right | .logical _ left right => left.isWritable && right.isWritable
  | .assign _ target value => target.isWritable && value.isWritable
  | .conditional test consequent alternate =>
      test.isWritable && (consequent.isWritable && alternate.isWritable)
  | .sequence items => writableExprs items
  | .access object property _ => object.isWritable && property.isWritable
  | .call callee arguments | .construct callee arguments =>
      callee.isWritable && writableExprs arguments
termination_by structural e => e

def Target.isWritable : Target → Bool
  | .ident _ | .unsupported => true
  | .access object property _ => object.isWritable && property.isWritable
termination_by structural t => t

def Member.isWritable : Member → Bool
  | .property key value _ _ _ _ => key.isWritable && value.isWritable
  | .spread argument => argument.isWritable
  | .unsupported => true
termination_by structural m => m

def Pattern.isWritable : Pattern → Bool
  | .ident _ | .unsupported => true
  | .default target value => target.isWritable && value.isWritable
  | .rest target => target.isWritable
termination_by structural p => p

def FunctionCode.isWritable : FunctionCode → Bool
  | ⟨_, params, body, _, _, _⟩ => writablePatterns params && body.isWritable
termination_by structural f => f

def FunctionBody.isWritable : FunctionBody → Bool
  | .block body => writableStmts body
  | .expression value => value.isWritable
termination_by structural b => b

def Stmt.isWritable : Stmt → Bool
  | .declaration _ declarators => writableDeclarators declarators
  | .function code => code.isWritable
  | .expression value | .throw value => value.isWritable
  | .block body => writableStmts body
  | .empty | .brk _ | .cont _ | .unsupported => true
  | .conditional test consequent alternate =>
      test.isWritable && (consequent.isWritable && writableStmt? alternate)
  | .forLoop init test update body =>
      writableInit? init && (writableExpr? test && (writableExpr? update && body.isWritable))
  | .whileLoop test body | .doWhile body test => test.isWritable && body.isWritable
  | .switch discriminant cases => discriminant.isWritable && writableCases cases
  | .tryCatch block handler finalizer =>
      writableStmts block && (writableHandler? handler && writableBlock? finalizer)
  | .ret value => writableExpr? value
termination_by structural s => s

def Declarator.isWritable : Declarator → Bool
  | ⟨target, init⟩ => target.isWritable && writableExpr? init
termination_by structural d => d

def ForInit.isWritable : ForInit → Bool
  | .declaration _ declarators => writableDeclarators declarators
  | .expression value => value.isWritable
termination_by structural i => i

def SwitchCase.isWritable : SwitchCase → Bool
  | ⟨test, body⟩ => writableExpr? test && writableStmts body
termination_by structural c => c

def CatchClause.isWritable : CatchClause → Bool
  | ⟨param, body⟩ => writablePattern? param && writableStmts body
termination_by structural c => c

def writableExpr? : Option Expr → Bool
  | none => true
  | some e => e.isWritable
termination_by structural e => e

def writableStmt? : Option Stmt → Bool
  | none => true
  | some s => s.isWritable
termination_by structural s => s

def writablePattern? : Option Pattern → Bool
  | none => true
  | some p => p.isWritable
termination_by structural p => p

def writableInit? : Option ForInit → Bool
  | none => true
  | some i => i.isWritable
termination_by structural i => i

def writableHandler? : Option CatchClause → Bool
  | none => true
  | some c => c.isWritable
termination_by structural c => c

def writableBlock? : Option (List Stmt) → Bool
  | none => true
  | some body => writableStmts body
termination_by structural b => b

def writableExprs : List Expr → Bool
  | [] => true
  | e :: rest => e.isWritable && writableExprs rest
termination_by structural es => es

def writableElements : List (Option Expr) → Bool
  | [] => true
  | e :: rest => writableExpr? e && writableElements rest
termination_by structural es => es

def writableMembers : List Member → Bool
  | [] => true
  | m :: rest => m.isWritable && writableMembers rest
termination_by structural ms => ms

def writablePatterns : List Pattern → Bool
  | [] => true
  | p :: rest => p.isWritable && writablePatterns rest
termination_by structural ps => ps

def writableStmts : List Stmt → Bool
  | [] => true
  | s :: rest => s.isWritable && writableStmts rest
termination_by structural ss => ss

def writableDeclarators : List Declarator → Bool
  | [] => true
  | d :: rest => d.isWritable && writableDeclarators rest
termination_by structural ds => ds

def writableCases : List SwitchCase → Bool
  | [] => true
  | c :: rest => c.isWritable && writableCases rest
termination_by structural cs => cs

end

/-- What is asked of a list is asked of each member. -/
theorem writable_of_mem {α : Type} {one : α → Bool} {all : List α → Bool}
    (cons : ∀ a rest, all (a :: rest) = (one a && all rest)) {values : List α}
    (h : all values = true) : ∀ a ∈ values, one a = true := by
  induction values with
  | nil => exact List.forall_mem_nil _
  | cons a rest ih =>
      rw [cons, Bool.and_eq_true] at h
      exact List.forall_mem_cons.mpr ⟨h.1, ih h.2⟩

/-! ## Every tree has a written form -/

@[simp] theorem exists_identifierForm (name : String) : ∃ json, identifierForm name json :=
  Json.exists_follows (by simp [nameRules]) (by simp [nameRules])

@[simp] theorem Position.exists_form (p : Position) : ∃ json, p.form json :=
  Json.exists_follows (by simp) (by simp)

@[simp] theorem Span.exists_form (span : Span) : ∃ json, span.form json :=
  Json.exists_follows (by simp) (by simp)

@[simp] theorem RegexLiteral.exists_form (regex : RegexLiteral) : ∃ json, regex.form json :=
  Json.exists_follows (by simp) (by simp)

theorem Quasi.exists_form (quasi : Quasi) : ∃ json, quasi.form json := by
  have value : ∃ json, Json.Follows
      [.optional "cooked" textForm quasi.cooked, .present "raw" (textForm quasi.raw)] json :=
    Json.exists_follows (by simp) (by simp)
  exact Json.exists_follows (by simp [value]) (by simp)

/-- Trees that are no larger than `n` can be written. -/
structure Forms.Covers (w : Forms) (n : Nat) : Prop where
  expr : ∀ e : Expr, sizeOf e ≤ n → e.isWritable = true → ∃ json, w.expr e json
  stmt : ∀ s : Stmt, sizeOf s ≤ n → s.isWritable = true → ∃ json, w.stmt s json
  pattern : ∀ p : Pattern, sizeOf p ≤ n → p.isWritable = true → ∃ json, w.pattern p json

section Sizes

variable {α : Type} [SizeOf α] {n : Nat} {form : α → Json → Prop} {one : α → Bool}

theorem exists_list (cover : ∀ a, sizeOf a ≤ n → one a = true → ∃ json, form a json)
    {all : List α → Bool} (cons : ∀ a rest, all (a :: rest) = (one a && all rest))
    {values : List α} (size : sizeOf values ≤ n) (writable : all values = true) :
    ∃ json, listForm form values json := by
  refine exists_listForm fun a ha => cover a ?_ (writable_of_mem cons writable a ha)
  have smaller := List.sizeOf_lt_of_mem ha
  omega

theorem exists_option (cover : ∀ a, sizeOf a ≤ n → one a = true → ∃ json, form a json)
    {some? : Option α → Bool} (eq : ∀ a, some? (some a) = one a)
    {value : Option α} (size : sizeOf value ≤ n) (writable : some? value = true) :
    ∀ a, value = some a → ∃ json, form a json := by
  rintro a rfl
  rw [Option.some.sizeOf_spec] at size
  exact cover a (by omega) (eq a ▸ writable)

end Sizes

namespace Forms.Covers

variable {w : Forms} {n : Nat} (h : w.Covers n)
include h

theorem exprs {es : List Expr} (size : sizeOf es ≤ n) (writable : writableExprs es = true) :
    ∃ json, listForm w.expr es json :=
  exists_list h.expr (fun _ _ => rfl) size writable

theorem stmts {body : List Stmt} (size : sizeOf body ≤ n) (writable : writableStmts body = true) :
    ∃ json, listForm w.stmt body json :=
  exists_list h.stmt (fun _ _ => rfl) size writable

theorem expr? {e : Option Expr} (size : sizeOf e ≤ n) (writable : writableExpr? e = true) :
    ∀ a, e = some a → ∃ json, w.expr a json :=
  exists_option h.expr (fun _ => rfl) size writable

theorem block (body : List Stmt) (size : sizeOf body ≤ n) (writable : writableStmts body = true) :
    ∃ json, w.block body json :=
  Json.exists_follows (by simpa [blockRules] using h.stmts size writable) (by simp [blockRules])

theorem functionBody (body : FunctionBody) (size : sizeOf body ≤ n)
    (writable : body.isWritable = true) : ∃ json, w.functionBody body json := by
  cases body with
  | block body => exact h.block body (by simp at size; omega) writable
  | expression value => exact h.expr value (by simp at size; omega) writable

theorem functionRules (code : FunctionCode) (size : sizeOf code ≤ n)
    (writable : code.isWritable = true) : ∀ rule ∈ w.functionRules code, rule.Fillable := by
  obtain ⟨name, params, body, generator, isAsync, span⟩ := code
  rw [FunctionCode.isWritable, Bool.and_eq_true] at writable
  rw [FunctionCode.mk.sizeOf_spec] at size
  have params : ∃ json, listForm w.pattern params json :=
    exists_list h.pattern (fun _ _ => rfl) (by omega) writable.1
  have body := h.functionBody body (by omega) writable.2
  simp [Forms.functionRules, params, body]

theorem declarator (d : Declarator) (size : sizeOf d ≤ n) (writable : d.isWritable = true) :
    ∃ json, w.declarator d json := by
  obtain ⟨target, init⟩ := d
  rw [Declarator.isWritable, Bool.and_eq_true] at writable
  rw [Declarator.mk.sizeOf_spec] at size
  have target := h.pattern target (by omega) writable.1
  have init := h.expr? (by omega) writable.2
  exact Json.exists_follows (by simpa using ⟨target, init⟩) (by simp)

theorem declarationRules (kind : DeclarationKind) {declarators : List Declarator}
    (size : sizeOf declarators ≤ n) (writable : writableDeclarators declarators = true) :
    ∀ rule ∈ w.declarationRules kind declarators, rule.Fillable := by
  have declarators : ∃ json, listForm w.declarator declarators json :=
    exists_list h.declarator (fun _ _ => rfl) size writable
  simp [Forms.declarationRules, declarators]

theorem forInit (init : ForInit) (size : sizeOf init ≤ n) (writable : init.isWritable = true) :
    ∃ json, w.forInit init json := by
  cases init with
  | declaration kind declarators =>
      rw [ForInit.declaration.sizeOf_spec] at size
      exact Json.exists_follows (h.declarationRules kind (by omega) writable)
        (by simp [Forms.declarationRules])
  | expression value => exact h.expr value (by simp at size; omega) writable

theorem switchCase (clause : SwitchCase) (size : sizeOf clause ≤ n)
    (writable : clause.isWritable = true) : ∃ json, w.switchCase clause json := by
  obtain ⟨test, body⟩ := clause
  rw [SwitchCase.isWritable, Bool.and_eq_true] at writable
  rw [SwitchCase.mk.sizeOf_spec] at size
  have test := h.expr? (by omega) writable.1
  have body := h.stmts (by omega) writable.2
  exact Json.exists_follows (by simpa using ⟨test, body⟩) (by simp)

theorem catchClause (clause : CatchClause) (size : sizeOf clause ≤ n)
    (writable : clause.isWritable = true) : ∃ json, w.catchClause clause json := by
  obtain ⟨param, body⟩ := clause
  rw [CatchClause.isWritable, Bool.and_eq_true] at writable
  rw [CatchClause.mk.sizeOf_spec] at size
  have param : ∀ p, param = some p → ∃ json, w.pattern p json :=
    exists_option h.pattern (fun _ => rfl) (by omega) writable.1
  have body := h.block body (by omega) writable.2
  exact Json.exists_follows (by simpa using ⟨param, body⟩) (by simp)

theorem accessRules {object property : Expr} (computed : Bool) (objectSize : sizeOf object ≤ n)
    (propertySize : sizeOf property ≤ n)
    (writable : (object.isWritable && property.isWritable) = true) :
    ∀ rule ∈ w.accessRules object property computed, rule.Fillable := by
  rw [Bool.and_eq_true] at writable
  simp [Forms.accessRules, h.expr object objectSize writable.1,
    h.expr property propertySize writable.2]

theorem target (t : Target) (size : sizeOf t ≤ n) (writable : t.isWritable = true) :
    ∃ json, w.target t json := by
  refine Json.exists_tagged (by decide) ?_ (w.nodup_targetRules t)
  cases t with
  | ident name => simp [targetRules, nameRules]
  | access object property computed =>
      rw [Target.access.sizeOf_spec] at size
      exact h.accessRules computed (by omega) (by omega) writable
  | unsupported => exact List.forall_mem_nil _

theorem member (m : Member) (size : sizeOf m ≤ n) (writable : m.isWritable = true) :
    ∃ json, w.member m json := by
  refine Json.exists_tagged (by decide) ?_ (w.nodup_memberRules m)
  cases m with
  | property key value kind computed method shorthand =>
      rw [Member.isWritable, Bool.and_eq_true] at writable
      rw [Member.property.sizeOf_spec] at size
      have key := h.expr key (by omega) writable.1
      have value := h.expr value (by omega) writable.2
      simp [memberRules, key, value]
  | spread argument =>
      rw [Member.spread.sizeOf_spec] at size
      simpa [memberRules, argumentRules] using h.expr argument (by omega) writable
  | unsupported => exact List.forall_mem_nil _

theorem patternRules (p : Pattern) (size : sizeOf p ≤ n + 1) (writable : p.isWritable = true) :
    ∀ rule ∈ w.patternRules p, rule.Fillable := by
  cases p with
  | ident name => simp [Forms.patternRules, nameRules]
  | default target value =>
      rw [Pattern.isWritable, Bool.and_eq_true] at writable
      rw [Pattern.default.sizeOf_spec] at size
      simp [Forms.patternRules, h.pattern target (by omega) writable.1,
        h.expr value (by omega) writable.2]
  | rest target =>
      rw [Pattern.rest.sizeOf_spec] at size
      simpa [Forms.patternRules] using h.pattern target (by omega) writable
  | unsupported => exact List.forall_mem_nil _

theorem exprRules (e : Expr) (size : sizeOf e ≤ n + 1) (writable : e.isWritable = true) :
    ∀ rule ∈ w.exprRules e, rule.Fillable := by
  cases e with
  | ident name => simp [Forms.exprRules, nameRules]
  | literal l =>
      simp [Forms.exprRules, Literal.rules, LiteralValue.exists_form writable]
  | this | unsupported => exact List.forall_mem_nil _
  | array elements =>
      rw [Expr.array.sizeOf_spec] at size
      have element (e : Option Expr) (size : sizeOf e ≤ n) (writable : writableExpr? e = true) :
          ∃ json, nullableForm w.expr e json := by
        cases e with
        | none => exact ⟨_, rfl⟩
        | some e => exact h.expr? size writable e rfl
      have elements : ∃ json, listForm (nullableForm w.expr) elements json :=
        exists_list element (fun _ _ => rfl) (by omega) writable
      simpa [Forms.exprRules] using elements
  | object members =>
      rw [Expr.object.sizeOf_spec] at size
      have members : ∃ json, listForm w.member members json :=
        exists_list h.member (fun _ _ => rfl) (by omega) writable
      simpa [Forms.exprRules] using members
  | function code => exact h.functionRules code (by simp at size; omega) writable
  | arrow code => exact h.functionRules code (by simp at size; omega) writable
  | template quasis values =>
      rw [Expr.template.sizeOf_spec] at size
      simp [Forms.exprRules, h.exprs (by omega) writable,
        exists_listForm fun quasi _ => Quasi.exists_form quasi]
  | unary op argument =>
      rw [Expr.unary.sizeOf_spec] at size
      simp [Forms.exprRules, h.expr argument (by omega) writable]
  | update op givesNew argument =>
      rw [Expr.update.sizeOf_spec] at size
      simp [Forms.exprRules, h.expr argument (by omega) writable]
  | binary op left right =>
      rw [Expr.isWritable, Bool.and_eq_true] at writable
      rw [Expr.binary.sizeOf_spec] at size
      simp [Forms.exprRules, h.expr left (by omega) writable.1,
        h.expr right (by omega) writable.2]
  | logical op left right =>
      rw [Expr.isWritable, Bool.and_eq_true] at writable
      rw [Expr.logical.sizeOf_spec] at size
      simp [Forms.exprRules, h.expr left (by omega) writable.1,
        h.expr right (by omega) writable.2]
  | assign op target value =>
      simp only [Expr.isWritable, Bool.and_eq_true] at writable
      rw [Expr.assign.sizeOf_spec] at size
      simp [Forms.exprRules, h.target target (by omega) writable.1, h.expr value (by omega) writable.2]
  | conditional test consequent alternate =>
      simp only [Expr.isWritable, Bool.and_eq_true] at writable
      rw [Expr.conditional.sizeOf_spec] at size
      simp [Forms.exprRules, h.expr test (by omega) writable.1,
        h.expr consequent (by omega) writable.2.1, h.expr alternate (by omega) writable.2.2]
  | sequence items =>
      rw [Expr.sequence.sizeOf_spec] at size
      simpa [Forms.exprRules] using h.exprs (by omega) writable
  | access object property computed =>
      rw [Expr.access.sizeOf_spec] at size
      exact h.accessRules computed (by omega) (by omega) writable
  | call callee arguments =>
      rw [Expr.isWritable, Bool.and_eq_true] at writable
      rw [Expr.call.sizeOf_spec] at size
      simp [Forms.exprRules, h.expr callee (by omega) writable.1, h.exprs (by omega) writable.2]
  | construct callee arguments =>
      rw [Expr.isWritable, Bool.and_eq_true] at writable
      rw [Expr.construct.sizeOf_spec] at size
      simp [Forms.exprRules, h.expr callee (by omega) writable.1, h.exprs (by omega) writable.2]
  | spread argument =>
      rw [Expr.spread.sizeOf_spec] at size
      simpa [Forms.exprRules, argumentRules] using h.expr argument (by omega) writable

theorem stmtRules (s : Stmt) (size : sizeOf s ≤ n + 1) (writable : s.isWritable = true) :
    ∀ rule ∈ w.stmtRules s, rule.Fillable := by
  cases s with
  | declaration kind declarators =>
      exact h.declarationRules kind (by simp at size; omega) writable
  | function code => exact h.functionRules code (by simp at size; omega) writable
  | expression value =>
      rw [Stmt.expression.sizeOf_spec] at size
      simpa [Forms.stmtRules] using h.expr value (by omega) writable
  | block body =>
      rw [Stmt.block.sizeOf_spec] at size
      simpa [Forms.stmtRules, blockRules] using h.stmts (by omega) writable
  | empty | unsupported => exact List.forall_mem_nil _
  | conditional test consequent alternate =>
      simp only [Stmt.isWritable, Bool.and_eq_true] at writable
      rw [Stmt.conditional.sizeOf_spec] at size
      have alternate : ∀ s, alternate = some s → ∃ json, w.stmt s json :=
        exists_option h.stmt (fun _ => rfl) (by omega) writable.2.2
      simpa [Forms.stmtRules, h.expr test (by omega) writable.1,
        h.stmt consequent (by omega) writable.2.1] using alternate
  | forLoop init test update body =>
      simp only [Stmt.isWritable, Bool.and_eq_true] at writable
      rw [Stmt.forLoop.sizeOf_spec] at size
      have init : ∀ i, init = some i → ∃ json, w.forInit i json :=
        exists_option h.forInit (fun _ => rfl) (by omega) writable.1
      have test := h.expr? (by omega) writable.2.1
      have update := h.expr? (by omega) writable.2.2.1
      have body := h.stmt body (by omega) writable.2.2.2
      simpa [Forms.stmtRules] using ⟨init, test, update, body⟩
  | whileLoop test body =>
      rw [Stmt.isWritable, Bool.and_eq_true] at writable
      rw [Stmt.whileLoop.sizeOf_spec] at size
      simp [Forms.stmtRules, h.expr test (by omega) writable.1, h.stmt body (by omega) writable.2]
  | doWhile body test =>
      rw [Stmt.isWritable, Bool.and_eq_true] at writable
      rw [Stmt.doWhile.sizeOf_spec] at size
      simp [Forms.stmtRules, h.expr test (by omega) writable.1, h.stmt body (by omega) writable.2]
  | switch discriminant cases =>
      rw [Stmt.isWritable, Bool.and_eq_true] at writable
      rw [Stmt.switch.sizeOf_spec] at size
      have cases : ∃ json, listForm w.switchCase cases json :=
        exists_list h.switchCase (fun _ _ => rfl) (by omega) writable.2
      simp [Forms.stmtRules, h.expr discriminant (by omega) writable.1, cases]
  | tryCatch block handler finalizer =>
      simp only [Stmt.isWritable, Bool.and_eq_true] at writable
      rw [Stmt.tryCatch.sizeOf_spec] at size
      have block := h.block block (by omega) writable.1
      have handler : ∀ c, handler = some c → ∃ json, w.catchClause c json :=
        exists_option h.catchClause (fun _ => rfl) (by omega) writable.2.1
      have finalizer : ∀ b, finalizer = some b → ∃ json, w.block b json :=
        exists_option h.block (fun _ => rfl) (by omega) writable.2.2
      simpa [Forms.stmtRules] using ⟨block, handler, finalizer⟩
  | ret value =>
      rw [Stmt.ret.sizeOf_spec] at size
      simpa [Forms.stmtRules] using h.expr? (by omega) writable
  | brk label | cont label => simp [Forms.stmtRules]
  | throw value =>
      rw [Stmt.throw.sizeOf_spec] at size
      simpa [Forms.stmtRules, argumentRules] using h.expr value (by omega) writable

omit h

/-- A level more covers trees that are larger by one. -/
theorem ofDepth (n : Nat) : (Forms.ofDepth n).Covers n := by
  induction n with
  | zero =>
      -- no tree has size 0
      refine ⟨fun e size => ?_, fun s size => ?_, fun p size => ?_⟩
      · cases e <;> simp at size
      · cases s <;> simp at size
      · cases p <;> simp at size
  | succ n ih =>
      refine ⟨fun e size writable => ?_, fun s size writable => ?_, fun p size writable => ?_⟩
      · exact Json.exists_tagged (by decide) (ih.exprRules e size writable) (nodup_exprRules _ e)
      · exact Json.exists_tagged (by decide) (ih.stmtRules s size writable) (nodup_stmtRules _ s)
      · exact Json.exists_tagged (by decide) (ih.patternRules p size writable)
          (nodup_patternRules _ p)

end Forms.Covers

/-- Every program has a written form if its literals and assignment operators do. -/
theorem Program.exists_written {program : Program} (writable : writableStmts program.body = true) :
    ∃ json, program.Written json := by
  obtain ⟨json, written⟩ :=
    (Forms.Covers.ofDepth (sizeOf program.body)).block program.body (Nat.le_refl _) writable
  exact ⟨json, _, written⟩

end ScriptTree
