import ScriptTree.Proofs.WrittenTrees

/-!
# Reading back what is written

Reading gives back the tree that a JSON was written from.  Each rule of a node is read by one of
`required`, `optional` and `defaulted` (`FieldRule.Met`), so a node reads back once its parts do.
Nodes are written and read in levels, and the induction is on the level of the readers: a reader of
one level more reads nodes that are nested one deeper.

Two positions accept either of two kinds of node and take the first that reads: the body of a
function, and the head of a `for` loop.  What was written as an expression is never read as the
first kind there, since an expression has no statements under `body` and neither a `kind` nor
`declarations` (`block_eq_none`, `declaration_eq_none`).
-/

namespace ScriptTree

open Reader

variable {α β : Type}

/-! ## Nesting -/

namespace Json

theorem itemsDepth_le_iff {items : List Json} {d : Nat} :
    itemsDepth items ≤ d ↔ ∀ item ∈ items, item.depth ≤ d := by
  induction items with
  | nil => simp [itemsDepth]
  | cons item items ih => rw [itemsDepth, Nat.max_le, ih, List.forall_mem_cons]

theorem fieldsDepth_le_iff {fields : List (String × Json)} {d : Nat} :
    fieldsDepth fields ≤ d ↔ ∀ field ∈ fields, field.2.depth ≤ d := by
  induction fields with
  | nil => simp [fieldsDepth]
  | cons field fields ih => rw [fieldsDepth, Nat.max_le, ih, List.forall_mem_cons]

theorem depth_lt_of_mem {item : Json} {items : List Json} (h : item ∈ items) :
    item.depth < (Json.array items).depth := by
  have bound := itemsDepth_le_iff.mp (Nat.le_refl (itemsDepth items)) item h
  rw [depth]
  omega

theorem depth_lt_of_mem_valuesOf {name : String} {value : Json} {fields : List (String × Json)}
    (h : value ∈ valuesOf name fields) : value.depth < (Json.object fields).depth := by
  obtain ⟨field, hf, rfl⟩ := List.mem_map.mp h
  have bound := fieldsDepth_le_iff.mp (Nat.le_refl (fieldsDepth fields)) field
    (List.mem_of_mem_filter hf)
  rw [depth]
  omega

theorem depth_filter_le (p : String × Json → Bool) (fields : List (String × Json)) :
    (Json.object (fields.filter p)).depth ≤ (Json.object fields).depth := by
  have bound := fieldsDepth_le_iff.mp (Nat.le_refl (fieldsDepth fields))
  have filtered : fieldsDepth (fields.filter p) ≤ fieldsDepth fields :=
    fieldsDepth_le_iff.mpr fun field hf => bound field (List.mem_of_mem_filter hf)
  rw [depth, depth]
  omega

/-- Taking the fields of one name away leaves those of another. -/
theorem valuesOf_filter {name other : String} (h : name ≠ other) (fields : List (String × Json)) :
    valuesOf name (fields.filter fun field => field.1 ≠ other) = valuesOf name fields := by
  rw [valuesOf, valuesOf, List.filter_filter]
  congr 1
  refine List.filter_congr fun field _ => ?_
  by_cases same : field.1 = name
  · simp [same, h]
  · simp [same]

end Json

/-! ## Reading one value -/

/-- Below depth `d`, the reader gives back what the form writes. -/
def ReadsBack (d : Nat) (form : α → Json → Prop) (reader : Reader α) : Prop :=
  ∀ a json, form a json → json.depth < d → reader json = some a

/-- A form that is never null. -/
def NotNull (form : α → Json → Prop) : Prop := ∀ a, ¬ form a .null

theorem bind_of_some {x : Option α} {f : α → Option β} {a : α} {b : β} (hx : x = some a)
    (hf : f a = some b) : (x >>= f) = some b := by
  subst hx
  exact hf

theorem eq_singleton_of_head? {l : List α} {a : α} (once : l.length ≤ 1) (head : l.head? = some a) :
    l = [a] := by
  obtain ⟨rest, rfl⟩ := List.head?_eq_some_iff.mp head
  cases rest with
  | nil => rfl
  | cons b rest => simp at once

section Parts

variable (d : Nat)

theorem text_readsBack : ReadsBack d textForm string := by
  rintro s json rfl _
  rfl

theorem flag_readsBack : ReadsBack d flagForm bool := by
  rintro b json rfl _
  rfl

theorem word_readsBack : ReadsBack d wordForm word := by
  rintro n json rfl _
  have small := n.toNat_lt_size
  simp only [word, Int.toNat_natCast]
  rw [if_pos (by omega), UInt32.ofNat_toNat]

theorem named_readsBack {names : List (String × α)} {spelling : α → String} (braces : Bool)
    (table : IsTableOf spelling names) :
    ReadsBack d (spelledForm spelling) (named names braces) := by
  rintro a json rfl _
  exact (table _ a).mpr rfl

theorem literalValue_readsBack : ReadsBack d LiteralValue.form LiteralValue.read := by
  intro v json written _
  cases v with
  | null | bool b | string s =>
      cases written
      rfl
  | number x =>
      obtain ⟨n, rfl, -, rfl⟩ := written
      rfl
  | other value =>
      obtain ⟨rfl, collection⟩ := written
      cases json with
      | array items => rfl
      | object fields => rfl
      | null | bool b | number n | string s => cases collection

theorem text_notNull : NotNull textForm := by
  intro s h
  cases h

end Parts

theorem ReadsBack.list {d : Nat} {form : α → Json → Prop} {reader : Reader α}
    (h : ReadsBack d form reader) : ReadsBack d (listForm form) (list reader) := by
  rintro values json ⟨items, rfl, written⟩ depth
  have shallow (item : Json) (hi : item ∈ items) : item.depth < d :=
    Nat.lt_trans (Json.depth_lt_of_mem hi) depth
  clear depth
  rw [Reader.list]
  induction written with
  | nil => rfl
  | @cons a item values items first _ ih =>
      obtain ⟨here, later⟩ := List.forall_mem_cons.mp shallow
      rw [List.mapM_cons]
      exact bind_of_some (h a item first here) (bind_of_some (ih later) rfl)

theorem ReadsBack.nullable {d : Nat} {form : α → Json → Prop} {reader : Reader α}
    (h : ReadsBack d form reader) (notNull : NotNull form) :
    ReadsBack d (nullableForm form) (nullable reader) := by
  intro value json written depth
  cases value with
  | none =>
      cases written
      rfl
  | some a =>
      have read := h a json written depth
      cases json with
      | null => exact absurd written (notNull a)
      | bool b | number n | string s | array items | object fields =>
          simp only [Reader.nullable, read, Option.map_some]

/-! ## Reading fields -/

/-- A field follows its rule, and what stands there is nested less than `d` deep. -/
def FieldRule.Met (d : Nat) (rule : FieldRule) (field : Option Json) : Prop :=
  rule.holds field ∧ ∀ json, field = some json → json.depth < d

namespace FieldRule.Met

variable {d : Nat} {name : String} {form : α → Json → Prop} {reader : Reader α}
  {field : Option Json}

theorem required {a : α} (h : (present name (form a)).Met d field)
    (reads : ReadsBack d form reader) : Reader.required reader field = some a := by
  obtain ⟨⟨json, rfl, written⟩, depth⟩ := h
  exact reads a json written (depth json rfl)

theorem optional {value : Option α} (h : (FieldRule.optional name form value).Met d field)
    (reads : ReadsBack d form reader) (notNull : NotNull form) :
    Reader.optional reader field = some value := by
  obtain ⟨holds, depth⟩ := h
  cases value with
  | none =>
      obtain rfl | rfl := holds
      · rfl
      · rfl
  | some a =>
      obtain ⟨json, rfl, written⟩ := holds
      exact reads.nullable notNull (some a) json written (depth json rfl)

theorem defaulted {default value : α}
    (h : (FieldRule.defaulted name default form value).Met d field)
    (reads : ReadsBack d form reader) : Reader.defaulted default reader field = some value := by
  obtain ⟨⟨rfl, rfl⟩ | ⟨json, rfl, written⟩, depth⟩ := h
  · rfl
  · exact reads value json written (depth json rfl)

end FieldRule.Met

/-- The fields follow the rules. -/
def FieldRule.AllMet (d : Nat) (field : String → Option Json) : List FieldRule → Prop
  | [] => True
  | rule :: rules => rule.Met d (field rule.name) ∧ AllMet d field rules

theorem FieldRule.allMet_of_forall {d : Nat} {field : String → Option Json}
    {rules : List FieldRule} (h : ∀ rule ∈ rules, rule.Met d (field rule.name)) :
    AllMet d field rules := by
  induction rules with
  | nil => trivial
  | cons rule rules ih =>
      rw [List.forall_mem_cons] at h
      exact ⟨h.1, ih h.2⟩

namespace Json

variable {d : Nat} {rules : List FieldRule} {json : Json}

theorem Follows.object (h : json.Follows rules) : ∃ fields, json = .object fields := by
  cases json with
  | object fields => exact ⟨fields, rfl⟩
  | null | bool b | number n | string s | array items => exact h.elim

/-- A name that decides stands in no field without a rule. -/
theorem Follows.valuesOf_eq_nil {fields : List (String × Json)} {name : String}
    (h : (Json.object fields).Follows rules) (deciding : name ∈ decidingNames)
    (free : name ∉ rules.map FieldRule.name) : valuesOf name fields = [] := by
  refine Json.valuesOf_eq_nil fun mem => ?_
  obtain ⟨field, hf, rfl⟩ := List.mem_map.mp mem
  exact free (h.2 field hf deciding)

theorem Follows.notNull {rules : α → List FieldRule} :
    NotNull fun a json => Json.Follows (rules a) json := fun _ h => h

/-- The fields of an object that follows the rules. -/
theorem Follows.record (h : json.Follows rules) (depth : json.depth ≤ d) :
    ∃ field, Reader.record (rules.map FieldRule.name) json = some field ∧
      FieldRule.AllMet d field rules := by
  cases json with
  | object fields =>
      obtain ⟨follows, -⟩ := h
      have once : (rules.map FieldRule.name).all
          (fun name => (valuesOf name fields).length ≤ 1) = true := by
        simp only [List.all_map, List.all_eq_true, Function.comp_apply, decide_eq_true_eq]
        exact fun rule hr => (follows rule hr).1
      refine ⟨fun name => (valuesOf name fields).head?, if_pos once, ?_⟩
      refine FieldRule.allMet_of_forall fun rule hr => ⟨(follows rule hr).2, fun value hv => ?_⟩
      exact Nat.lt_of_lt_of_le (depth_lt_of_mem_valuesOf (List.mem_of_mem_head? hv)) depth
  | null | bool b | number n | string s | array items => exact h.elim

variable {types : List String} {type? : Option String}

/-- A node splits into its type and the rest of its fields. -/
theorem Tagged.split (h : json.Tagged types type? rules)
    (free : ("type" :: rules.map FieldRule.name).Nodup) (positions : Bool) :
    ∃ type rest, (∀ own, type? = some own → type = own) ∧ (type? = none → type ∉ types) ∧
      Reader.tagged types positions json = some (type, rest) ∧ rest.Follows rules ∧
      rest.depth ≤ json.depth := by
  obtain ⟨type, known, unknown, follows⟩ := h
  cases json with
  | object fields =>
      obtain ⟨follows, free'⟩ := follows
      obtain ⟨⟨once, _, head, rfl⟩, follows⟩ := List.forall_mem_cons.mp follows
      have values := eq_singleton_of_head? once head
      have other (name : String) (h : name ∈ rules.map FieldRule.name) : name ≠ "type" := by
        rintro rfl
        exact (List.nodup_cons.mp free).1 h
      refine ⟨type, .object (fields.filter fun field => field.1 ≠ "type"), known, unknown, ?_,
        ⟨?_, ?_⟩, depth_filter_le _ fields⟩
      · rw [FieldRule.present_name] at values
        simp only [Reader.tagged, values, typeName, Option.map_some]
      · intro rule hr
        rw [valuesOf_filter (other _ (List.mem_map_of_mem hr))]
        exact follows rule hr
      · intro field hf deciding
        obtain ⟨mem, ne⟩ := List.mem_filter.mp hf
        obtain same | later := List.mem_cons.mp (free' field mem deciding)
        · exact absurd same (of_decide_eq_true ne)
        · exact later
  | null | bool b | number n | string s | array items => exact follows.elim

theorem Tagged.object (h : json.Tagged types type? rules) : ∃ fields, json = .object fields := by
  obtain ⟨type, -, -, follows⟩ := h
  exact follows.object

theorem Tagged.known {type : String} (h : json.Tagged types type? rules)
    (free : ("type" :: rules.map FieldRule.name).Nodup) (positions : Bool)
    (depth : json.depth ≤ d) (own : type? = some type) :
    ∃ rest, Reader.tagged types positions json = some (type, rest) ∧ rest.Follows rules ∧
      rest.depth ≤ d := by
  obtain ⟨type', rest, known, -, tagged, follows, le⟩ := h.split free positions
  cases known type own
  exact ⟨rest, tagged, follows, Nat.le_trans le depth⟩

/-- The fields of a node, without its type. -/
theorem Tagged.record {type : String} (h : json.Tagged types type? rules)
    (free : ("type" :: rules.map FieldRule.name).Nodup) (positions : Bool)
    (depth : json.depth ≤ d) (own : type? = some type) :
    ∃ rest field, Reader.tagged types positions json = some (type, rest) ∧
      Reader.record (rules.map FieldRule.name) rest = some field ∧
      FieldRule.AllMet d field rules := by
  obtain ⟨rest, tagged, follows, le⟩ := h.known free positions depth own
  obtain ⟨field, record, met⟩ := follows.record le
  exact ⟨rest, field, tagged, record, met⟩

theorem Tagged.unknown (h : json.Tagged types none []) (positions : Bool) :
    ∃ type fields, type ∉ types ∧
      Reader.tagged types positions json = some (type, .object fields) := by
  obtain ⟨type, rest, -, unknown, tagged, follows, -⟩ := h.split (by simp) positions
  obtain ⟨fields, rfl⟩ := follows.object
  exact ⟨type, fields, unknown rfl, tagged⟩

end Json

/-! ## Records without nodes -/

theorem Position.readsBack (d : Nat) : ReadsBack d Position.form Position.read := by
  intro p json written depth
  obtain ⟨field, record, line, column, -⟩ := written.record (Nat.le_of_lt depth)
  exact bind_of_some record <| bind_of_some (line.required (word_readsBack d)) <|
    bind_of_some (column.required (word_readsBack d)) rfl

theorem Span.readsBack (d : Nat) : ReadsBack d Span.form Span.read := by
  intro span json written depth
  obtain ⟨field, record, start, stop, -⟩ := written.record (Nat.le_of_lt depth)
  exact bind_of_some record <| bind_of_some (start.required (Position.readsBack d)) <|
    bind_of_some (stop.required (Position.readsBack d)) rfl

theorem identifierName_of_follows {name : String} {json : Json}
    (written : json.Follows (nameRules name)) : identifierName json = some name := by
  obtain ⟨field, record, text, -⟩ := written.record (Nat.le_refl _)
  exact bind_of_some record (text.required (text_readsBack _))

theorem identifier_readsBack (d : Nat) : ReadsBack d identifierForm identifierName :=
  fun _ _ written _ => identifierName_of_follows written

theorem RegexLiteral.readsBack (d : Nat) : ReadsBack d RegexLiteral.form RegexLiteral.read := by
  intro regex json written depth
  obtain ⟨field, record, pattern, flags, -⟩ := written.record (Nat.le_of_lt depth)
  exact bind_of_some record <| bind_of_some (pattern.required (text_readsBack d)) <|
    bind_of_some (flags.required (text_readsBack d)) rfl

theorem Literal.read_of_follows {l : Literal} {json : Json} (written : json.Follows l.rules) :
    Literal.read json = some l := by
  obtain ⟨field, record, value, regex, bigint, -⟩ := written.record (Nat.le_refl _)
  exact bind_of_some record <|
    bind_of_some (value.defaulted (literalValue_readsBack _)) <|
    bind_of_some (regex.optional (RegexLiteral.readsBack _) Json.Follows.notNull) <|
    bind_of_some (bigint.optional (text_readsBack _) text_notNull) rfl

theorem Quasi.readsBack (d : Nat) : ReadsBack d Quasi.form Quasi.read := by
  intro quasi json written depth
  obtain ⟨field, record, ⟨⟨inner, here, follows⟩, shallow⟩, tail, -⟩ :=
    written.record (Nat.le_of_lt depth)
  obtain ⟨text, innerRecord, cooked, raw, -⟩ :=
    follows.record (Nat.le_of_lt (shallow inner here))
  have value : (field "value").bind (Reader.record ["cooked", "raw"]) = some text :=
    bind_of_some here innerRecord
  exact bind_of_some record <| bind_of_some value <|
    bind_of_some (cooked.optional (text_readsBack d) text_notNull) <|
    bind_of_some (raw.required (text_readsBack d)) <|
    bind_of_some (tail.defaulted (flag_readsBack d)) rfl

/-! ## Expressions where something else may stand -/

theorem Forms.expr_node {n : Nat} {e : Expr} {json : Json} (h : (Forms.ofDepth n).expr e json) :
    ∃ m, (Forms.ofDepth m).exprNode e json := by
  cases n with
  | zero => exact h.elim
  | succ m => exact ⟨m, h⟩

theorem Forms.expr_object {n : Nat} {e : Expr} {json : Json} (h : (Forms.ofDepth n).expr e json) :
    ∃ fields, json = .object fields := by
  obtain ⟨m, node⟩ := expr_node h
  exact Json.Tagged.object node

theorem Forms.functionBody_object {n : Nat} {body : FunctionBody} {json : Json}
    (h : (Forms.ofDepth n).functionBody body json) : ∃ fields, json = .object fields := by
  cases body with
  | block body => exact Json.Follows.object h
  | expression value => exact expr_object h

/-- Under the name `body` of an expression there is no array. -/
theorem Forms.body_object {n : Nat} {e : Expr} {fields : List (String × Json)}
    (node : (Forms.ofDepth n).exprNode e (.object fields)) :
    ∀ value ∈ Json.valuesOf "body" fields, ∃ inner, value = .object inner := by
  obtain ⟨type, -, -, follows⟩ := node
  have function (code : FunctionCode)
      (mem : .present "body" ((Forms.ofDepth n).functionBody code.body) ∈
        (Forms.ofDepth n).exprRules e) :
      ∀ value ∈ Json.valuesOf "body" fields, ∃ inner, value = .object inner := by
    obtain ⟨once, body, head, written⟩ := follows.1 _ (List.mem_cons_of_mem _ mem)
    have values := eq_singleton_of_head? once head
    rw [FieldRule.present_name] at values
    rw [values, List.forall_mem_singleton]
    exact functionBody_object written
  have other (free : "body" ∉ ((Forms.ofDepth n).exprRules e).map FieldRule.name) :
      ∀ value ∈ Json.valuesOf "body" fields, ∃ inner, value = .object inner := by
    have none : Json.valuesOf "body" fields = [] := by
      refine follows.valuesOf_eq_nil (by decide) ?_
      simpa using free
    rw [none]
    exact List.forall_mem_nil _
  cases e with
  | function code | arrow code => exact function code (by simp [exprRules, functionRules])
  | _ => exact other (by simp [exprRules, nameRules, Literal.rules, accessRules, argumentRules])

theorem Forms.kind_free {n : Nat} {e : Expr} {fields : List (String × Json)}
    (node : (Forms.ofDepth n).exprNode e (.object fields)) : Json.valuesOf "kind" fields = [] := by
  obtain ⟨type, -, -, follows⟩ := node
  refine follows.valuesOf_eq_nil (by decide) ?_
  cases e <;> simp [exprRules, nameRules, Literal.rules, functionRules, accessRules, argumentRules]

/-- What fails on the fields of an object fails, whether or not a name stands there twice. -/
theorem bind_record_eq_none {names : List String} {fields : List (String × Json)}
    {f : (String → Option Json) → Option α}
    (h : f (fun name => (Json.valuesOf name fields).head?) = none) :
    (Reader.record names (.object fields) >>= f) = none := by
  rw [Reader.record]
  split
  · exact h
  · rfl

/-- An expression does not read as a block. -/
theorem Readers.block_eq_none (r : Readers) {n : Nat} {e : Expr} {json : Json}
    (written : (Forms.ofDepth n).expr e json) : r.block json = none := by
  obtain ⟨fields, rfl⟩ := Forms.expr_object written
  obtain ⟨m, node⟩ := Forms.expr_node written
  refine bind_record_eq_none ?_
  show required (list r.stmt) (Json.valuesOf "body" fields).head? = none
  cases body : (Json.valuesOf "body" fields).head? with
  | none => rfl
  | some value =>
      obtain ⟨inner, rfl⟩ := Forms.body_object node value (List.mem_of_mem_head? body)
      rfl

/-- An expression does not read as a declaration. -/
theorem Readers.declaration_eq_none (r : Readers) (braces : Bool) {n : Nat} {e : Expr} {json : Json}
    (written : (Forms.ofDepth n).expr e json) : r.declaration braces json = none := by
  obtain ⟨fields, rfl⟩ := Forms.expr_object written
  obtain ⟨m, node⟩ := Forms.expr_node written
  refine bind_record_eq_none ?_
  simp only [Forms.kind_free node]
  rfl

/-! ## Nodes -/

theorem Forms.stmt_object {n : Nat} {s : Stmt} {json : Json} (h : (Forms.ofDepth n).stmt s json) :
    ∃ fields, json = .object fields := by
  cases n with
  | zero => exact h.elim
  | succ n => exact Json.Tagged.object h

theorem Forms.pattern_object {n : Nat} {p : Pattern} {json : Json}
    (h : (Forms.ofDepth n).pattern p json) : ∃ fields, json = .object fields := by
  cases n with
  | zero => exact h.elim
  | succ n => exact Json.Tagged.object h

section Objects

variable {form : α → Json → Prop} (object : ∀ {a json}, form a json → ∃ fields, json = .object fields)
include object

theorem notNull_of_object : NotNull form := by
  intro a written
  obtain ⟨fields, h⟩ := object written
  cases h

/-- There is nothing to read below depth 1. -/
theorem readsBack_of_object (reader : Reader α) : ReadsBack 1 form reader := by
  intro a json written depth
  obtain ⟨fields, rfl⟩ := object written
  rw [Json.depth] at depth
  omega

end Objects

theorem Forms.expr_notNull (n : Nat) : NotNull (Forms.ofDepth n).expr :=
  notNull_of_object expr_object

theorem Forms.stmt_notNull (n : Nat) : NotNull (Forms.ofDepth n).stmt :=
  notNull_of_object stmt_object

theorem Forms.pattern_notNull (n : Nat) : NotNull (Forms.ofDepth n).pattern :=
  notNull_of_object pattern_object

theorem Forms.forInit_notNull (n : Nat) : NotNull (Forms.ofDepth n).forInit := by
  intro init written
  cases init with
  | declaration kind declarators => exact written
  | expression value => exact expr_notNull n value written

/-- Below depth `d`, the readers give back what `n` levels write. -/
structure Readers.GiveBack (r : Readers) (n d : Nat) : Prop where
  expr : ReadsBack d (Forms.ofDepth n).expr r.expr
  stmt : ReadsBack d (Forms.ofDepth n).stmt r.stmt
  pattern : ReadsBack d (Forms.ofDepth n).pattern r.pattern

namespace Readers.GiveBack

variable {r : Readers} {n d : Nat} (h : r.GiveBack n d) {json : Json}
include h

theorem block_of_follows {body : List Stmt}
    (written : json.Follows ((Forms.ofDepth n).blockRules body)) (depth : json.depth ≤ d) :
    r.block json = some body := by
  obtain ⟨field, record, body, -⟩ := written.record depth
  exact bind_of_some record (body.required h.stmt.list)

theorem block : ReadsBack d (Forms.ofDepth n).block r.block :=
  fun _ _ written depth => h.block_of_follows written (Nat.le_of_lt depth)

theorem functionBody : ReadsBack d (Forms.ofDepth n).functionBody r.functionBody := by
  intro body json written depth
  cases body with
  | block body => simp only [Readers.functionBody, h.block body json written depth]
  | expression value =>
      simp only [Readers.functionBody, r.block_eq_none written, h.expr value json written depth,
        Option.map_some]

theorem functionCode {code : FunctionCode}
    (written : json.Follows ((Forms.ofDepth n).functionRules code)) (depth : json.depth ≤ d) :
    r.functionCode json = some code := by
  cases code
  obtain ⟨field, record, name, params, body, generator, isAsync, span, -⟩ := written.record depth
  exact bind_of_some record <|
    bind_of_some (name.optional (identifier_readsBack d) Json.Follows.notNull) <|
    bind_of_some (params.required h.pattern.list) <|
    bind_of_some (body.required h.functionBody) <|
    bind_of_some (generator.defaulted (flag_readsBack d)) <|
    bind_of_some (isAsync.defaulted (flag_readsBack d)) <|
    bind_of_some (span.optional (Span.readsBack d) Json.Follows.notNull) rfl

theorem declarator : ReadsBack d (Forms.ofDepth n).declarator r.declarator := by
  rintro ⟨target, init⟩ json written depth
  obtain ⟨field, record, target, init, -⟩ := written.record (Nat.le_of_lt depth)
  exact bind_of_some record <| bind_of_some (target.required h.pattern) <|
    bind_of_some (init.optional h.expr (Forms.expr_notNull n)) rfl

theorem declaration {kind : DeclarationKind} {declarators : List Declarator} (braces : Bool)
    (written : json.Follows ((Forms.ofDepth n).declarationRules kind declarators))
    (depth : json.depth ≤ d) : r.declaration braces json = some (kind, declarators) := by
  obtain ⟨field, record, kind, declarators, -⟩ := written.record depth
  exact bind_of_some record <|
    bind_of_some (kind.required (named_readsBack d braces DeclarationKind.names_isTable)) <|
    bind_of_some (declarators.required h.declarator.list) rfl

theorem forInit : ReadsBack d (Forms.ofDepth n).forInit r.forInit := by
  intro init json written depth
  cases init with
  | declaration kind declarators =>
      simp only [Readers.forInit, h.declaration false written (Nat.le_of_lt depth)]
  | expression value =>
      simp only [Readers.forInit, r.declaration_eq_none false written,
        h.expr value json written depth, Option.map_some]

theorem switchCase : ReadsBack d (Forms.ofDepth n).switchCase r.switchCase := by
  rintro ⟨test, body⟩ json written depth
  obtain ⟨field, record, test, body, -⟩ := written.record (Nat.le_of_lt depth)
  exact bind_of_some record <|
    bind_of_some (test.optional h.expr (Forms.expr_notNull n)) <|
    bind_of_some (body.required h.stmt.list) rfl

theorem catchClause : ReadsBack d (Forms.ofDepth n).catchClause r.catchClause := by
  rintro ⟨param, body⟩ json written depth
  obtain ⟨field, record, param, body, -⟩ := written.record (Nat.le_of_lt depth)
  exact bind_of_some record <|
    bind_of_some (param.optional h.pattern (Forms.pattern_notNull n)) <|
    bind_of_some (body.required h.block) rfl

theorem argument {e : Expr} (written : json.Follows ((Forms.ofDepth n).argumentRules e))
    (depth : json.depth ≤ d) : r.argument json = some e := by
  obtain ⟨field, record, argument, -⟩ := written.record depth
  exact bind_of_some record (argument.required h.expr)

theorem access {object property : Expr} {computed : Bool}
    (written : json.Follows ((Forms.ofDepth n).accessRules object property computed))
    (depth : json.depth ≤ d) : r.access json = some (object, property, computed) := by
  obtain ⟨field, record, object, property, computed, -⟩ := written.record depth
  exact bind_of_some record <| bind_of_some (object.required h.expr) <|
    bind_of_some (property.required h.expr) <|
    bind_of_some (computed.defaulted (flag_readsBack d)) rfl

theorem target : ReadsBack d (Forms.ofDepth n).target r.target := by
  intro t json written depth
  have known {type : String} (own : t.type? = some type) :=
    Json.Tagged.known written (Forms.nodup_targetRules _ t) true (Nat.le_of_lt depth) own
  cases t with
  | ident name =>
      obtain ⟨rest, tagged, follows, -⟩ := known rfl
      exact bind_of_some tagged (bind_of_some (identifierName_of_follows follows) rfl)
  | access object property computed =>
      obtain ⟨rest, tagged, follows, le⟩ := known rfl
      exact bind_of_some tagged (bind_of_some (h.access follows le) rfl)
  | unsupported =>
      obtain ⟨type, fields, unknown, tagged⟩ := Json.Tagged.unknown written true
      refine bind_of_some tagged ?_
      simp only [Target.types, List.mem_cons, List.not_mem_nil, or_false, not_or] at unknown
      simp [unknown, fieldless]

theorem member : ReadsBack d (Forms.ofDepth n).member r.member := by
  intro m json written depth
  have known {type : String} (own : m.type? = some type) :=
    Json.Tagged.known written (Forms.nodup_memberRules _ m) true (Nat.le_of_lt depth) own
  have fields {type : String} (own : m.type? = some type) :=
    Json.Tagged.record written (Forms.nodup_memberRules _ m) true (Nat.le_of_lt depth) own
  cases m with
  | property key value kind computed method shorthand =>
      obtain ⟨rest, field, tagged, record, key, value, kind, computed, method, shorthand, -⟩ := fields rfl
      exact bind_of_some tagged <| bind_of_some record <|
        bind_of_some (key.required h.expr) <| bind_of_some (value.required h.expr) <|
        bind_of_some (kind.defaulted (named_readsBack d true MemberKind.names_isTable)) <|
        bind_of_some (computed.defaulted (flag_readsBack d)) <|
        bind_of_some (method.defaulted (flag_readsBack d)) <|
        bind_of_some (shorthand.defaulted (flag_readsBack d)) rfl
  | spread argument =>
      obtain ⟨rest, tagged, follows, le⟩ := known rfl
      exact bind_of_some tagged (bind_of_some (h.argument follows le) rfl)
  | unsupported =>
      obtain ⟨type, fields, unknown, tagged⟩ := Json.Tagged.unknown written true
      refine bind_of_some tagged ?_
      simp only [Member.types, List.mem_cons, List.not_mem_nil, or_false, not_or] at unknown
      simp [unknown, fieldless]

theorem patternNode {p : Pattern} (written : (Forms.ofDepth n).patternNode p json)
    (depth : json.depth ≤ d) : r.patternNode json = some p := by
  have known {type : String} (own : p.type? = some type) :=
    Json.Tagged.known written (Forms.nodup_patternRules _ p) true depth own
  have fields {type : String} (own : p.type? = some type) :=
    Json.Tagged.record written (Forms.nodup_patternRules _ p) true depth own
  cases p with
  | ident name =>
      obtain ⟨rest, tagged, follows, -⟩ := known rfl
      exact bind_of_some tagged (bind_of_some (identifierName_of_follows follows) rfl)
  | default target value =>
      obtain ⟨rest, field, tagged, record, target, value, -⟩ := fields rfl
      exact bind_of_some tagged <| bind_of_some record <|
        bind_of_some (target.required h.pattern) <| bind_of_some (value.required h.expr) rfl
  | rest target =>
      obtain ⟨rest, field, tagged, record, target, -⟩ := fields rfl
      exact bind_of_some tagged <| bind_of_some record <|
        bind_of_some (target.required h.pattern) rfl
  | unsupported =>
      obtain ⟨type, fields, unknown, tagged⟩ := Json.Tagged.unknown written true
      refine bind_of_some tagged ?_
      simp only [Pattern.types, List.mem_cons, List.not_mem_nil, or_false, not_or] at unknown
      simp [unknown, fieldless]

theorem exprNode {e : Expr} (positions : Bool) (written : (Forms.ofDepth n).exprNode e json)
    (depth : json.depth ≤ d) : r.exprNode positions json = some e := by
  have known {type : String} (own : e.type? = some type) :=
    Json.Tagged.known written (Forms.nodup_exprRules _ e) positions depth own
  have fields {type : String} (own : e.type? = some type) :=
    Json.Tagged.record written (Forms.nodup_exprRules _ e) positions depth own
  cases e with
  | ident name =>
      obtain ⟨rest, tagged, follows, -⟩ := known rfl
      exact bind_of_some tagged (bind_of_some (identifierName_of_follows follows) rfl)
  | literal l =>
      obtain ⟨rest, tagged, follows, -⟩ := known rfl
      exact bind_of_some tagged (bind_of_some (Literal.read_of_follows follows) rfl)
  | this =>
      obtain ⟨rest, tagged, follows, -⟩ := known rfl
      obtain ⟨fields, rfl⟩ := follows.object
      exact bind_of_some tagged rfl
  | array elements =>
      obtain ⟨rest, field, tagged, record, elements, -⟩ := fields rfl
      exact bind_of_some tagged <| bind_of_some record <|
        bind_of_some (elements.required (h.expr.nullable (Forms.expr_notNull n)).list) rfl
  | object members =>
      obtain ⟨rest, field, tagged, record, members, -⟩ := fields rfl
      exact bind_of_some tagged <| bind_of_some record <|
        bind_of_some (members.required h.member.list) rfl
  | function code | arrow code =>
      obtain ⟨rest, tagged, follows, le⟩ := known rfl
      exact bind_of_some tagged (bind_of_some (h.functionCode follows le) rfl)
  | template quasis values =>
      obtain ⟨rest, field, tagged, record, quasis, values, -⟩ := fields rfl
      exact bind_of_some tagged <| bind_of_some record <|
        bind_of_some (quasis.required (Quasi.readsBack d).list) <|
        bind_of_some (values.required h.expr.list) rfl
  | unary op argument =>
      obtain ⟨rest, field, tagged, record, operator, argument, -⟩ := fields rfl
      exact bind_of_some tagged <| bind_of_some record <|
        bind_of_some (operator.required (named_readsBack d true UnaryOp.names_isTable)) <|
        bind_of_some (argument.required h.expr) rfl
  | update op givesNew argument =>
      obtain ⟨rest, field, tagged, record, operator, givesNew, argument, -⟩ := fields rfl
      exact bind_of_some tagged <| bind_of_some record <|
        bind_of_some (operator.required (named_readsBack d true UpdateOp.names_isTable)) <|
        bind_of_some (givesNew.required (flag_readsBack d)) <|
        bind_of_some (argument.required h.expr) rfl
  | binary op left right =>
      obtain ⟨rest, field, tagged, record, operator, left, right, -⟩ := fields rfl
      exact bind_of_some tagged <| bind_of_some record <|
        bind_of_some (operator.required (named_readsBack d true BinaryOp.names_isTable)) <|
        bind_of_some (left.required h.expr) <| bind_of_some (right.required h.expr) rfl
  | logical op left right =>
      obtain ⟨rest, field, tagged, record, operator, left, right, -⟩ := fields rfl
      exact bind_of_some tagged <| bind_of_some record <|
        bind_of_some (operator.required (named_readsBack d true LogicalOp.names_isTable)) <|
        bind_of_some (left.required h.expr) <| bind_of_some (right.required h.expr) rfl
  | assign op target value =>
      obtain ⟨rest, field, tagged, record, operator, target, value, -⟩ := fields rfl
      exact bind_of_some tagged <| bind_of_some record <|
        bind_of_some (operator.required (named_readsBack d true AssignOp.names_isTable)) <|
        bind_of_some (target.required h.target) <| bind_of_some (value.required h.expr) rfl
  | conditional test consequent alternate =>
      obtain ⟨rest, field, tagged, record, test, consequent, alternate, -⟩ := fields rfl
      exact bind_of_some tagged <| bind_of_some record <|
        bind_of_some (test.required h.expr) <| bind_of_some (consequent.required h.expr) <|
        bind_of_some (alternate.required h.expr) rfl
  | sequence items =>
      obtain ⟨rest, field, tagged, record, items, -⟩ := fields rfl
      exact bind_of_some tagged <| bind_of_some record <|
        bind_of_some (items.required h.expr.list) rfl
  | access object property computed =>
      obtain ⟨rest, tagged, follows, le⟩ := known rfl
      exact bind_of_some tagged (bind_of_some (h.access follows le) rfl)
  | call callee arguments =>
      obtain ⟨rest, field, tagged, record, callee, arguments, -⟩ := fields rfl
      exact bind_of_some tagged <| bind_of_some record <|
        bind_of_some (callee.required h.expr) <| bind_of_some (arguments.required h.expr.list) rfl
  | construct callee arguments =>
      obtain ⟨rest, field, tagged, record, callee, arguments, -⟩ := fields rfl
      exact bind_of_some tagged <| bind_of_some record <|
        bind_of_some (callee.required h.expr) <| bind_of_some (arguments.defaulted h.expr.list) rfl
  | spread argument =>
      obtain ⟨rest, tagged, follows, le⟩ := known rfl
      exact bind_of_some tagged (bind_of_some (h.argument follows le) rfl)
  | unsupported =>
      obtain ⟨type, fields, unknown, tagged⟩ := Json.Tagged.unknown written positions
      refine bind_of_some tagged ?_
      simp only [Expr.types, List.mem_cons, List.not_mem_nil, or_false, not_or] at unknown
      simp [unknown, fieldless]

theorem stmtNode {s : Stmt} (positions : Bool) (written : (Forms.ofDepth n).stmtNode s json)
    (depth : json.depth ≤ d) : r.stmtNode positions json = some s := by
  have known {type : String} (own : s.type? = some type) :=
    Json.Tagged.known written (Forms.nodup_stmtRules _ s) positions depth own
  have fields {type : String} (own : s.type? = some type) :=
    Json.Tagged.record written (Forms.nodup_stmtRules _ s) positions depth own
  cases s with
  | declaration kind declarators =>
      obtain ⟨rest, tagged, follows, le⟩ := known rfl
      exact bind_of_some tagged (bind_of_some (h.declaration true follows le) rfl)
  | function code =>
      obtain ⟨rest, tagged, follows, le⟩ := known rfl
      exact bind_of_some tagged (bind_of_some (h.functionCode follows le) rfl)
  | expression value =>
      obtain ⟨rest, field, tagged, record, value, -⟩ := fields rfl
      exact bind_of_some tagged <| bind_of_some record <| bind_of_some (value.required h.expr) rfl
  | block body =>
      obtain ⟨rest, tagged, follows, le⟩ := known rfl
      exact bind_of_some tagged (bind_of_some (h.block_of_follows follows le) rfl)
  | empty =>
      obtain ⟨rest, tagged, follows, -⟩ := known rfl
      obtain ⟨fields, rfl⟩ := follows.object
      exact bind_of_some tagged rfl
  | conditional test consequent alternate =>
      obtain ⟨rest, field, tagged, record, test, consequent, alternate, -⟩ := fields rfl
      exact bind_of_some tagged <| bind_of_some record <|
        bind_of_some (test.required h.expr) <| bind_of_some (consequent.required h.stmt) <|
        bind_of_some (alternate.optional h.stmt (Forms.stmt_notNull n)) rfl
  | forLoop init test update body =>
      obtain ⟨rest, field, tagged, record, init, test, update, body, -⟩ := fields rfl
      exact bind_of_some tagged <| bind_of_some record <|
        bind_of_some (init.optional h.forInit (Forms.forInit_notNull n)) <|
        bind_of_some (test.optional h.expr (Forms.expr_notNull n)) <|
        bind_of_some (update.optional h.expr (Forms.expr_notNull n)) <|
        bind_of_some (body.required h.stmt) rfl
  | whileLoop test body =>
      obtain ⟨rest, field, tagged, record, test, body, -⟩ := fields rfl
      exact bind_of_some tagged <| bind_of_some record <|
        bind_of_some (test.required h.expr) <| bind_of_some (body.required h.stmt) rfl
  | doWhile body test =>
      obtain ⟨rest, field, tagged, record, body, test, -⟩ := fields rfl
      exact bind_of_some tagged <| bind_of_some record <|
        bind_of_some (body.required h.stmt) <| bind_of_some (test.required h.expr) rfl
  | switch discriminant cases =>
      obtain ⟨rest, field, tagged, record, discriminant, cases, -⟩ := fields rfl
      exact bind_of_some tagged <| bind_of_some record <|
        bind_of_some (discriminant.required h.expr) <|
        bind_of_some (cases.required h.switchCase.list) rfl
  | tryCatch block handler finalizer =>
      obtain ⟨rest, field, tagged, record, block, handler, finalizer, -⟩ := fields rfl
      exact bind_of_some tagged <| bind_of_some record <|
        bind_of_some (block.required h.block) <|
        bind_of_some (handler.optional h.catchClause fun _ null => null) <|
        bind_of_some (finalizer.optional h.block Json.Follows.notNull) rfl
  | ret value =>
      obtain ⟨rest, field, tagged, record, value, -⟩ := fields rfl
      exact bind_of_some tagged <| bind_of_some record <|
        bind_of_some (value.optional h.expr (Forms.expr_notNull n)) rfl
  | brk label | cont label =>
      obtain ⟨rest, field, tagged, record, label, -⟩ := fields rfl
      exact bind_of_some tagged <| bind_of_some record <|
        bind_of_some (label.optional (identifier_readsBack d) Json.Follows.notNull) rfl
  | throw value =>
      obtain ⟨rest, tagged, follows, le⟩ := known rfl
      exact bind_of_some tagged (bind_of_some (h.argument follows le) rfl)
  | unsupported =>
      obtain ⟨type, fields, unknown, tagged⟩ := Json.Tagged.unknown written positions
      refine bind_of_some tagged ?_
      simp only [Stmt.types, List.mem_cons, List.not_mem_nil, or_false, not_or] at unknown
      simp [unknown, fieldless]

omit h

/-- Readers of one level more read nodes that are nested one deeper. -/
theorem ofDepth (k n : Nat) : (Readers.ofDepth k).GiveBack n (k + 1) := by
  induction k generalizing n with
  | zero =>
      exact ⟨readsBack_of_object Forms.expr_object _, readsBack_of_object Forms.stmt_object _,
        readsBack_of_object Forms.pattern_object _⟩
  | succ k ih =>
      cases n with
      | zero => exact ⟨fun _ _ h => h.elim, fun _ _ h => h.elim, fun _ _ h => h.elim⟩
      | succ n =>
          refine ⟨fun e json written depth => ?_, fun s json written depth => ?_,
            fun p json written depth => ?_⟩
          · exact (ih n).exprNode true written (Nat.le_of_lt_succ depth)
          · exact (ih n).stmtNode true written (Nat.le_of_lt_succ depth)
          · exact (ih n).patternNode written (Nat.le_of_lt_succ depth)

end Readers.GiveBack

/-! ## Programs -/

theorem Stmt.readsBack (d n : Nat) : ReadsBack d (Forms.ofDepth n).stmt Stmt.read := by
  intro s json written _
  cases n with
  | zero => exact written.elim
  | succ n => exact (Readers.GiveBack.ofDepth json.depth n).stmtNode false written (Nat.le_succ _)

theorem Program.read_of_written {program : Program} {json : Json} (written : program.Written json) :
    Program.read json = some program := by
  obtain ⟨n, written⟩ := written
  obtain ⟨field, record, body, -⟩ := written.record (Nat.le_refl _)
  exact bind_of_some record (bind_of_some (body.required (Stmt.readsBack _ n).list) rfl)

/-- Every tree whose literals can be written has a written form, and reads back from each of its
written forms. -/
theorem written_reads_back (program : Program) :
    (writableStmts program.body = true → ∃ json, program.Written json) ∧
      ∀ json, program.Written json → Program.read json = some program :=
  ⟨Program.exists_written, fun _ => Program.read_of_written⟩

/-- A loop over an expression, an arrow function that gives a function, and a node that is not
supported. -/
def mixedProgram : Program :=
  ⟨[.forLoop (some (.expression (.ident "i"))) none none .empty,
    .expression (.arrow ⟨none, [], .expression (.function ⟨none, [], .block [], false, false, none⟩),
      false, false, none⟩),
    .unsupported]⟩

/-- A written form of it, with fields that no node has. -/
def mixedJson : Json :=
  .object [
    ("type", .string "Program"), ("start", .number (.integer 0)),
    ("body", .array [
      .object [
        ("body", .object [("type", .string "EmptyStatement"), ("range", .array [])]),
        ("type", .string "ForStatement"),
        ("init", .object [("name", .string "i"), ("start", .null), ("type", .string "Identifier")]),
        ("test", .null)],
      .object [
        ("type", .string "ExpressionStatement"),
        ("expression", .object [
          ("type", .string "ArrowFunctionExpression"), ("expression", .bool true),
          ("id", .null), ("params", .array []), ("async", .bool false),
          ("body", .object [
            ("type", .string "FunctionExpression"), ("params", .array []),
            ("body", .object [
              ("type", .string "BlockStatement"), ("end", .null), ("body", .array [])])])])],
      .object [("type", .string "ClassDeclaration"), ("start", .null), ("start", .null)]])]

theorem mixedProgram_written : mixedProgram.Written mixedJson := by
  refine ⟨4, ?_⟩
  simp [-Prod.forall, mixedProgram, mixedJson, Forms.ofDepth, Forms.block, Forms.blockRules,
    Forms.stmtNode, Forms.stmtRules, Forms.exprNode, Forms.exprRules, Forms.forInit,
    Forms.functionRules, Forms.functionBody, nameRules, Json.Tagged, Json.Follows,
    Json.valuesOf_cons, decidingNames, FieldRule.present, FieldRule.optional, FieldRule.defaulted,
    listForm, textForm, flagForm, Stmt.type?, Stmt.types, Expr.type?, Expr.types]

theorem written_reads_back_mixed :
    mixedProgram.Written mixedJson ∧ Program.read mixedJson = some mixedProgram ∧
      writableStmts mixedProgram.body = true ∧ ∃ json, mixedProgram.Written json :=
  ⟨mixedProgram_written, (written_reads_back mixedProgram).2 mixedJson mixedProgram_written, rfl,
    (written_reads_back mixedProgram).1 rfl⟩

end ScriptTree
