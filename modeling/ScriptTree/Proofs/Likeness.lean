import ScriptTree.Proofs.Syntax

/-!
# Likeness of trees

A tree is like another when it is the same but for some expressions that are *hidden*: `unsupported`
stands in their place.  A `Veil` says whether expressions may be hidden at all, and whether the
trees may have finalizers.  Parts that are never evaluated, such as a key that is not computed, may
have finalizers in any case.

Each relation is a recursion on the first tree, which says how far the second one follows it.
-/

namespace ScriptTree

/-! ## Veils -/

/-- How much a tree may differ from another. -/
structure Veil where
  /-- Whether expressions may be hidden. -/
  hides : Prop
  /-- Whether `try` statements may have finalizers. -/
  finalizers : Prop

namespace Veil

/-- The veil over what is never evaluated. -/
def lenient (V : Veil) : Veil := { V with finalizers := True }

/-- The veil over a key.  One that is not computed is never evaluated. -/
def key (V : Veil) : Bool → Veil
  | true => V
  | false => V.lenient

theorem finalizers_key (V : Veil) (h : V.finalizers) : ∀ computed, (V.key computed).finalizers
  | true => h
  | false => trivial

theorem not_hides_lenient {V : Veil} (h : ¬V.hides) : ¬V.lenient.hides := h

theorem not_hides_key (V : Veil) (h : ¬V.hides) : ∀ computed, ¬(V.key computed).hides
  | true | false => h

end Veil

/-! ## Trees -/

mutual

/-- The first expression is the second one with some parts hidden. -/
def Expr.Like (V : Veil) : Expr → Expr → Prop
  | .ident name, e => e = .ident name
  | .literal l, e => e = .literal l
  | .this, e => e = .this
  | .array elements, e => ∃ elements', e = .array elements' ∧ likeElements V elements elements'
  | .object members, e => ∃ members', e = .object members' ∧ likeMembers V members members'
  | .function code, e => ∃ code', e = .function code' ∧ code.Like V code'
  | .arrow code, e => ∃ code', e = .arrow code' ∧ code.Like V code'
  | .template quasis values, e =>
      ∃ values', e = .template quasis values' ∧ likeExprs V values values'
  | .unary op argument, e => ∃ argument', e = .unary op argument' ∧ argument.Like V argument'
  | .update op givesNew argument, e =>
      ∃ argument', e = .update op givesNew argument' ∧ argument.Like V argument'
  | .binary op left right, e =>
      ∃ left' right', e = .binary op left' right' ∧ left.Like V left' ∧ right.Like V right'
  | .logical op left right, e =>
      ∃ left' right', e = .logical op left' right' ∧ left.Like V left' ∧ right.Like V right'
  | .assign op target value, e =>
      ∃ target' value', e = .assign op target' value' ∧ target.Like V target' ∧ value.Like V value'
  | .conditional test consequent alternate, e =>
      ∃ test' consequent' alternate', e = .conditional test' consequent' alternate' ∧
        test.Like V test' ∧ consequent.Like V consequent' ∧ alternate.Like V alternate'
  | .sequence items, e => ∃ items', e = .sequence items' ∧ likeExprs V items items'
  | .access object property computed, e =>
      ∃ object' property', e = .access object' property' computed ∧ object.Like V object' ∧
        property.Like (V.key computed) property'
  | .call callee arguments, e =>
      ∃ callee' arguments', e = .call callee' arguments' ∧ callee.Like V callee' ∧
        likeExprs V arguments arguments'
  | .construct callee arguments, e =>
      ∃ callee' arguments', e = .construct callee' arguments' ∧ callee.Like V callee' ∧
        likeExprs V arguments arguments'
  | .spread argument, e => ∃ argument', e = .spread argument' ∧ argument.Like V argument'
  | .unsupported, e => V.hides ∨ e = .unsupported
termination_by structural e => e

def Target.Like (V : Veil) : Target → Target → Prop
  | .ident name, t => t = .ident name
  | .access object property computed, t =>
      ∃ object' property', t = .access object' property' computed ∧ object.Like V object' ∧
        property.Like (V.key computed) property'
  | .unsupported, t => t = .unsupported
termination_by structural e => e

def Member.Like (V : Veil) : Member → Member → Prop
  | .property key value kind computed method shorthand, m =>
      ∃ key' value', m = .property key' value' kind computed method shorthand ∧
        key.Like (V.key computed) key' ∧ value.Like V value'
  | .spread argument, m => ∃ argument', m = .spread argument' ∧ argument.Like V argument'
  | .unsupported, m => m = .unsupported
termination_by structural e => e

def Pattern.Like (V : Veil) : Pattern → Pattern → Prop
  | .ident name, p => p = .ident name
  | .default target value, p =>
      ∃ target' value', p = .default target' value' ∧ target.Like V.lenient target' ∧
        value.Like V value'
  | .rest target, p => ∃ target', p = .rest target' ∧ target.Like V.lenient target'
  | .unsupported, p => p = .unsupported
termination_by structural e => e

def FunctionCode.Like (V : Veil) : FunctionCode → FunctionCode → Prop
  | ⟨name, params, body, generator, isAsync, span⟩, f =>
      ∃ params' body', f = ⟨name, params', body', generator, isAsync, span⟩ ∧
        likeParams V params params' ∧ body.Like V body'
termination_by structural e => e

def FunctionBody.Like (V : Veil) : FunctionBody → FunctionBody → Prop
  | .block body, b => ∃ body', b = .block body' ∧ likeStmts V body body'
  | .expression value, b => ∃ value', b = .expression value' ∧ value.Like V value'
termination_by structural e => e

/-- The first statement is the second one with some parts hidden. -/
def Stmt.Like (V : Veil) : Stmt → Stmt → Prop
  | .declaration kind declarators, s =>
      ∃ declarators', s = .declaration kind declarators' ∧
        likeDeclarators V declarators declarators'
  | .function code, s => ∃ code', s = .function code' ∧ code.Like V code'
  | .expression value, s => ∃ value', s = .expression value' ∧ value.Like V value'
  | .block body, s => ∃ body', s = .block body' ∧ likeStmts V body body'
  | .empty, s => s = .empty
  | .conditional test consequent alternate, s =>
      ∃ test' consequent' alternate', s = .conditional test' consequent' alternate' ∧
        test.Like V test' ∧ consequent.Like V consequent' ∧ likeAlternate V alternate alternate'
  | .forLoop init test update body, s =>
      ∃ init' test' update' body', s = .forLoop init' test' update' body' ∧
        likeInit V init init' ∧ likeOptional V test test' ∧ likeOptional V update update' ∧
        body.Like V body'
  | .whileLoop test body, s =>
      ∃ test' body', s = .whileLoop test' body' ∧ test.Like V test' ∧ body.Like V body'
  | .doWhile body test, s =>
      ∃ body' test', s = .doWhile body' test' ∧ body.Like V body' ∧ test.Like V test'
  | .switch discriminant cases, s =>
      ∃ discriminant' cases', s = .switch discriminant' cases' ∧
        discriminant.Like V discriminant' ∧ likeCases V cases cases'
  | .tryCatch block handler finalizer, s =>
      ∃ block' handler' finalizer', s = .tryCatch block' handler' finalizer' ∧
        likeStmts V block block' ∧ likeHandler V handler handler' ∧
        likeFinalizer V finalizer finalizer'
  | .ret value, s => ∃ value', s = .ret value' ∧ likeOptional V value value'
  | .brk label, s => s = .brk label
  | .cont label, s => s = .cont label
  | .throw value, s => ∃ value', s = .throw value' ∧ value.Like V value'
  | .unsupported, s => s = .unsupported
termination_by structural e => e

def likeAlternate (V : Veil) : Option Stmt → Option Stmt → Prop
  | none, s => s = none
  | some statement, s => ∃ statement', s = some statement' ∧ statement.Like V statement'
termination_by structural e => e

def likeOptional (V : Veil) : Option Expr → Option Expr → Prop
  | none, e => e = none
  | some value, e => ∃ value', e = some value' ∧ value.Like V value'
termination_by structural e => e

def likeInit (V : Veil) : Option ForInit → Option ForInit → Prop
  | none, i => i = none
  | some (.declaration kind declarators), i =>
      ∃ declarators', i = some (.declaration kind declarators') ∧
        likeDeclarators V declarators declarators'
  | some (.expression value), i => ∃ value', i = some (.expression value') ∧ value.Like V value'
termination_by structural e => e

def likeCaught (V : Veil) : Option Pattern → Option Pattern → Prop
  | none, p => p = none
  | some pattern, p => ∃ pattern', p = some pattern' ∧ pattern.Like V pattern'
termination_by structural e => e

def likeHandler (V : Veil) : Option CatchClause → Option CatchClause → Prop
  | none, h => h = none
  | some ⟨param, body⟩, h =>
      ∃ param' body', h = some ⟨param', body'⟩ ∧ likeCaught V.lenient param param' ∧
        likeStmts V body body'
termination_by structural e => e

def likeFinalizer (V : Veil) : Option (List Stmt) → Option (List Stmt) → Prop
  | none, b => b = none
  | some body, b => V.finalizers ∧ ∃ body', b = some body' ∧ likeStmts V body body'
termination_by structural e => e

def likeStmts (V : Veil) : List Stmt → List Stmt → Prop
  | [], l => l = []
  | statement :: rest, l =>
      ∃ statement' rest', l = statement' :: rest' ∧ statement.Like V statement' ∧
        likeStmts V rest rest'
termination_by structural e => e

def likeCases (V : Veil) : List SwitchCase → List SwitchCase → Prop
  | [], l => l = []
  | ⟨test, body⟩ :: rest, l =>
      ∃ test' body' rest', l = ⟨test', body'⟩ :: rest' ∧ likeOptional V test test' ∧
        likeStmts V body body' ∧ likeCases V rest rest'
termination_by structural e => e

def likeDeclarators (V : Veil) : List Declarator → List Declarator → Prop
  | [], l => l = []
  | ⟨target, init⟩ :: rest, l =>
      ∃ target' init' rest', l = ⟨target', init'⟩ :: rest' ∧ target.Like V.lenient target' ∧
        likeOptional V init init' ∧ likeDeclarators V rest rest'
termination_by structural e => e

def likeParams (V : Veil) : List Pattern → List Pattern → Prop
  | [], l => l = []
  | param :: rest, l =>
      ∃ param' rest', l = param' :: rest' ∧ param.Like V param' ∧ likeParams V rest rest'
termination_by structural e => e

def likeExprs (V : Veil) : List Expr → List Expr → Prop
  | [], l => l = []
  | e :: rest, l => ∃ e' rest', l = e' :: rest' ∧ e.Like V e' ∧ likeExprs V rest rest'
termination_by structural e => e

def likeElements (V : Veil) : List (Option Expr) → List (Option Expr) → Prop
  | [], l => l = []
  | none :: rest, l => ∃ rest', l = none :: rest' ∧ likeElements V rest rest'
  | some e :: rest, l =>
      ∃ e' rest', l = some e' :: rest' ∧ e.Like V e' ∧ likeElements V rest rest'
termination_by structural e => e

def likeMembers (V : Veil) : List Member → List Member → Prop
  | [], l => l = []
  | member :: rest, l =>
      ∃ member' rest', l = member' :: rest' ∧ member.Like V member' ∧ likeMembers V rest rest'
termination_by structural e => e

end

/-! ## Every tree is like itself -/

mutual

theorem Expr.Like.refl {V : Veil} (h : V.finalizers) : ∀ e : Expr, e.Like V e
  | .ident _ | .literal _ | .this => rfl
  | .array elements => ⟨elements, rfl, likeElements_refl h elements⟩
  | .object members => ⟨members, rfl, likeMembers_refl h members⟩
  | .function code => ⟨code, rfl, .refl h code⟩
  | .arrow code => ⟨code, rfl, .refl h code⟩
  | .template _ values => ⟨values, rfl, likeExprs_refl h values⟩
  | .unary _ argument => ⟨argument, rfl, .refl h argument⟩
  | .update _ _ argument => ⟨argument, rfl, .refl h argument⟩
  | .binary _ left right => ⟨left, right, rfl, .refl h left, .refl h right⟩
  | .logical _ left right => ⟨left, right, rfl, .refl h left, .refl h right⟩
  | .assign _ target value => ⟨target, value, rfl, .refl h target, .refl h value⟩
  | .conditional test consequent alternate =>
      ⟨test, consequent, alternate, rfl, .refl h test, .refl h consequent, .refl h alternate⟩
  | .sequence items => ⟨items, rfl, likeExprs_refl h items⟩
  | .access whole key computed =>
      ⟨whole, key, rfl, .refl h whole, .refl (V.finalizers_key h computed) key⟩
  | .call callee arguments =>
      ⟨callee, arguments, rfl, .refl h callee, likeExprs_refl h arguments⟩
  | .construct callee arguments =>
      ⟨callee, arguments, rfl, .refl h callee, likeExprs_refl h arguments⟩
  | .spread argument => ⟨argument, rfl, .refl h argument⟩
  | .unsupported => .inr rfl

theorem Target.Like.refl {V : Veil} (h : V.finalizers) : ∀ t : Target, t.Like V t
  | .ident _ | .unsupported => rfl
  | .access whole key computed =>
      ⟨whole, key, rfl, .refl h whole, .refl (V.finalizers_key h computed) key⟩

theorem Member.Like.refl {V : Veil} (h : V.finalizers) : ∀ m : Member, m.Like V m
  | .property key value _ computed _ _ =>
      ⟨key, value, rfl, .refl (V.finalizers_key h computed) key, .refl h value⟩
  | .spread argument => ⟨argument, rfl, .refl h argument⟩
  | .unsupported => rfl

theorem Pattern.Like.refl {V : Veil} (h : V.finalizers) : ∀ p : Pattern, p.Like V p
  | .ident _ | .unsupported => rfl
  | .default target value => ⟨target, value, rfl, .refl trivial target, .refl h value⟩
  | .rest target => ⟨target, rfl, .refl trivial target⟩

theorem FunctionCode.Like.refl {V : Veil} (h : V.finalizers) : ∀ f : FunctionCode, f.Like V f
  | ⟨_, params, body, _, _, _⟩ => ⟨params, body, rfl, likeParams_refl h params, .refl h body⟩

theorem FunctionBody.Like.refl {V : Veil} (h : V.finalizers) : ∀ b : FunctionBody, b.Like V b
  | .block body => ⟨body, rfl, likeStmts_refl h body⟩
  | .expression value => ⟨value, rfl, .refl h value⟩

theorem Stmt.Like.refl {V : Veil} (h : V.finalizers) : ∀ s : Stmt, s.Like V s
  | .declaration _ declarators => ⟨declarators, rfl, likeDeclarators_refl h declarators⟩
  | .function code => ⟨code, rfl, .refl h code⟩
  | .expression value => ⟨value, rfl, .refl h value⟩
  | .block body => ⟨body, rfl, likeStmts_refl h body⟩
  | .conditional test consequent alternate =>
      ⟨test, consequent, alternate, rfl, .refl h test, .refl h consequent,
        likeAlternate_refl h alternate⟩
  | .forLoop init test update body =>
      ⟨init, test, update, body, rfl, likeInit_refl h init, likeOptional_refl h test,
        likeOptional_refl h update, .refl h body⟩
  | .whileLoop test body => ⟨test, body, rfl, .refl h test, .refl h body⟩
  | .doWhile body test => ⟨body, test, rfl, .refl h body, .refl h test⟩
  | .switch discriminant cases =>
      ⟨discriminant, cases, rfl, .refl h discriminant, likeCases_refl h cases⟩
  | .tryCatch block handler finalizer =>
      ⟨block, handler, finalizer, rfl, likeStmts_refl h block, likeHandler_refl h handler,
        likeFinalizer_refl h finalizer⟩
  | .ret value => ⟨value, rfl, likeOptional_refl h value⟩
  | .throw value => ⟨value, rfl, .refl h value⟩
  | .empty | .brk _ | .cont _ | .unsupported => rfl

theorem likeAlternate_refl {V : Veil} (h : V.finalizers) :
    ∀ s : Option Stmt, likeAlternate V s s
  | none => rfl
  | some statement => ⟨statement, rfl, .refl h statement⟩

theorem likeOptional_refl {V : Veil} (h : V.finalizers) : ∀ e : Option Expr, likeOptional V e e
  | none => rfl
  | some e => ⟨e, rfl, .refl h e⟩

theorem likeInit_refl {V : Veil} (h : V.finalizers) : ∀ i : Option ForInit, likeInit V i i
  | none => rfl
  | some (.declaration _ declarators) => ⟨declarators, rfl, likeDeclarators_refl h declarators⟩
  | some (.expression value) => ⟨value, rfl, .refl h value⟩

theorem likeCaught_refl {V : Veil} (h : V.finalizers) : ∀ p : Option Pattern, likeCaught V p p
  | none => rfl
  | some pattern => ⟨pattern, rfl, .refl h pattern⟩

theorem likeHandler_refl {V : Veil} (h : V.finalizers) :
    ∀ clause : Option CatchClause, likeHandler V clause clause
  | none => rfl
  | some ⟨param, body⟩ =>
      ⟨param, body, rfl, likeCaught_refl trivial param, likeStmts_refl h body⟩

theorem likeFinalizer_refl {V : Veil} (h : V.finalizers) :
    ∀ body : Option (List Stmt), likeFinalizer V body body
  | none => rfl
  | some body => ⟨h, body, rfl, likeStmts_refl h body⟩

theorem likeStmts_refl {V : Veil} (h : V.finalizers) : ∀ body : List Stmt, likeStmts V body body
  | [] => rfl
  | statement :: rest => ⟨statement, rest, rfl, .refl h statement, likeStmts_refl h rest⟩

theorem likeCases_refl {V : Veil} (h : V.finalizers) :
    ∀ cases : List SwitchCase, likeCases V cases cases
  | [] => rfl
  | ⟨test, body⟩ :: rest =>
      ⟨test, body, rest, rfl, likeOptional_refl h test, likeStmts_refl h body,
        likeCases_refl h rest⟩

theorem likeDeclarators_refl {V : Veil} (h : V.finalizers) :
    ∀ ds : List Declarator, likeDeclarators V ds ds
  | [] => rfl
  | ⟨target, init⟩ :: rest =>
      ⟨target, init, rest, rfl, .refl trivial target, likeOptional_refl h init,
        likeDeclarators_refl h rest⟩

theorem likeParams_refl {V : Veil} (h : V.finalizers) :
    ∀ params : List Pattern, likeParams V params params
  | [] => rfl
  | param :: rest => ⟨param, rest, rfl, .refl h param, likeParams_refl h rest⟩

theorem likeExprs_refl {V : Veil} (h : V.finalizers) : ∀ es : List Expr, likeExprs V es es
  | [] => rfl
  | e :: rest => ⟨e, rest, rfl, .refl h e, likeExprs_refl h rest⟩

theorem likeElements_refl {V : Veil} (h : V.finalizers) :
    ∀ es : List (Option Expr), likeElements V es es
  | [] => rfl
  | none :: rest => ⟨rest, rfl, likeElements_refl h rest⟩
  | some e :: rest => ⟨e, rest, rfl, .refl h e, likeElements_refl h rest⟩

theorem likeMembers_refl {V : Veil} (h : V.finalizers) : ∀ ms : List Member, likeMembers V ms ms
  | [] => rfl
  | member :: rest => ⟨member, rest, rfl, .refl h member, likeMembers_refl h rest⟩

end

/-! ## Trees without finalizers -/

/-- Whether a statement is a `try` with a finalizer. -/
def Stmt.hasFinalizer : Stmt → Bool
  | .tryCatch _ _ (some _) => true
  | _ => false

/-- The nodes that are no `try` with a finalizer. -/
def Checks.finalizerFree : Checks := ⟨fun _ => true, fun s => !s.hasFinalizer, fun _ => true⟩

theorem Expr.allArgument_finalizerFree {e : Expr} (h : e.allArgument .finalizerFree = true) :
    e.all .finalizerFree = true := by
  cases e with
  | spread source => exact h
  | _ => exact h

mutual

/-- A tree without finalizers may be seen through a veil that forbids them. -/
theorem Expr.Like.strict {V : Veil} : ∀ {e e' : Expr}, e.Like V.lenient e' →
    e'.all .finalizerFree = true → e.Like V e'
  | .ident _, _, h, _ | .literal _, _, h, _ | .this, _, h, _ | .unsupported, _, h, _ => h
  | .array _, _, ⟨elements, rfl, h⟩, free => ⟨elements, rfl, likeElements_strict h free⟩
  | .object _, _, ⟨members, rfl, h⟩, free => ⟨members, rfl, likeMembers_strict h free⟩
  | .function _, _, ⟨code, rfl, h⟩, free => ⟨code, rfl, h.strict free⟩
  | .arrow _, _, ⟨code, rfl, h⟩, free => ⟨code, rfl, h.strict free⟩
  | .template _ _, _, ⟨values, rfl, h⟩, free => ⟨values, rfl, likeExprs_strict h free⟩
  | .unary _ _, _, ⟨argument, rfl, h⟩, free => ⟨argument, rfl, h.strict free⟩
  | .update _ _ _, _, ⟨argument, rfl, h⟩, free => ⟨argument, rfl, h.strict free⟩
  | .binary _ _ _, _, ⟨left, right, rfl, hl, hr⟩, free => by
      simp only [Expr.all, Bool.and_eq_true] at free
      exact ⟨left, right, rfl, hl.strict free.1.2, hr.strict free.2⟩
  | .logical _ _ _, _, ⟨left, right, rfl, hl, hr⟩, free => by
      simp only [Expr.all, Bool.and_eq_true] at free
      exact ⟨left, right, rfl, hl.strict free.1.2, hr.strict free.2⟩
  | .assign _ _ _, _, ⟨target, value, rfl, ht, hv⟩, free => by
      simp only [Expr.all, Bool.and_eq_true] at free
      exact ⟨target, value, rfl, ht.strict free.1.2, hv.strict free.2⟩
  | .conditional _ _ _, _, ⟨test, consequent, alternate, rfl, ht, hc, ha⟩, free => by
      simp only [Expr.all, Bool.and_eq_true] at free
      exact ⟨test, consequent, alternate, rfl, ht.strict free.1.1.2, hc.strict free.1.2,
        ha.strict free.2⟩
  | .sequence _, _, ⟨items, rfl, h⟩, free => ⟨items, rfl, likeExprs_strict h free⟩
  -- A key that is not computed is not checked, and its veil is lenient anyway.
  | .access _ _ true, _, ⟨whole, key, rfl, hw, hk⟩, free => by
      simp only [Expr.all, Bool.and_eq_true] at free
      exact ⟨whole, key, rfl, hw.strict free.1.2, hk.strict free.2⟩
  | .access _ _ false, _, ⟨whole, key, rfl, hw, hk⟩, free => by
      simp only [Expr.all, Bool.and_eq_true] at free
      exact ⟨whole, key, rfl, hw.strict free.1.2, hk⟩
  | .call _ _, _, ⟨callee, arguments, rfl, hc, ha⟩, free => by
      simp only [Expr.all, Bool.and_eq_true] at free
      exact ⟨callee, arguments, rfl, hc.strict free.1.2, likeArguments_strict ha free.2⟩
  | .construct _ _, _, ⟨callee, arguments, rfl, hc, ha⟩, free => by
      simp only [Expr.all, Bool.and_eq_true] at free
      exact ⟨callee, arguments, rfl, hc.strict free.1.2, likeArguments_strict ha free.2⟩
  | .spread _, _, ⟨argument, rfl, h⟩, free => ⟨argument, rfl, h.strict free⟩
termination_by structural e => e

theorem Target.Like.strict {V : Veil} : ∀ {t t' : Target}, t.Like V.lenient t' →
    t'.all .finalizerFree = true → t.Like V t'
  | .ident _, _, h, _ | .unsupported, _, h, _ => h
  | .access _ _ true, _, ⟨whole, key, rfl, hw, hk⟩, free => by
      simp only [Target.all, Bool.and_eq_true] at free
      exact ⟨whole, key, rfl, hw.strict free.1, hk.strict free.2⟩
  | .access _ _ false, _, ⟨whole, key, rfl, hw, hk⟩, free => by
      simp only [Target.all, Bool.and_eq_true] at free
      exact ⟨whole, key, rfl, hw.strict free.1, hk⟩
termination_by structural e => e

theorem Member.Like.strict {V : Veil} : ∀ {m m' : Member}, m.Like V.lenient m' →
    m'.all .finalizerFree = true → m.Like V m'
  | .property _ _ _ true _ _, _, ⟨key, value, rfl, hk, hv⟩, free => by
      simp only [Member.all, Bool.and_eq_true] at free
      exact ⟨key, value, rfl, hk.strict free.1, hv.strict free.2⟩
  | .property _ _ _ false _ _, _, ⟨key, value, rfl, hk, hv⟩, free => by
      simp only [Member.all, Bool.and_eq_true] at free
      exact ⟨key, value, rfl, hk, hv.strict free.2⟩
  | .spread _, _, ⟨argument, rfl, h⟩, free => ⟨argument, rfl, h.strict free⟩
  | .unsupported, _, h, _ => h
termination_by structural e => e

theorem Pattern.Like.strict {V : Veil} : ∀ {p p' : Pattern}, p.Like V.lenient p' →
    p'.all .finalizerFree = true → p.Like V p'
  | .ident _, _, h, _ | .rest _, _, h, _ | .unsupported, _, h, _ => h
  | .default _ _, _, ⟨target, value, rfl, ht, hv⟩, free =>
      ⟨target, value, rfl, ht, hv.strict free⟩
termination_by structural e => e

theorem FunctionCode.Like.strict {V : Veil} : ∀ {f f' : FunctionCode}, f.Like V.lenient f' →
    f'.all .finalizerFree = true → f.Like V f'
  | ⟨_, _, _, _, _, _⟩, _, ⟨params, body, rfl, hp, hb⟩, free => by
      simp only [FunctionCode.all, Bool.and_eq_true] at free
      exact ⟨params, body, rfl, likeParams_strict hp free.1.2, hb.strict free.2⟩
termination_by structural e => e

theorem FunctionBody.Like.strict {V : Veil} : ∀ {b b' : FunctionBody}, b.Like V.lenient b' →
    b'.all .finalizerFree = true → b.Like V b'
  | .block _, _, ⟨body, rfl, h⟩, free => ⟨body, rfl, likeStmts_strict h free⟩
  | .expression _, _, ⟨value, rfl, h⟩, free => ⟨value, rfl, h.strict free⟩
termination_by structural e => e

theorem Stmt.Like.strict {V : Veil} : ∀ {s s' : Stmt}, s.Like V.lenient s' →
    s'.all .finalizerFree = true → s.Like V s'
  | .declaration _ _, _, ⟨declarators, rfl, h⟩, free =>
      ⟨declarators, rfl, likeDeclarators_strict h free⟩
  | .function _, _, ⟨code, rfl, h⟩, free => ⟨code, rfl, h.strict free⟩
  | .expression _, _, ⟨value, rfl, h⟩, free => ⟨value, rfl, h.strict free⟩
  | .block _, _, ⟨body, rfl, h⟩, free => ⟨body, rfl, likeStmts_strict h free⟩
  | .empty, _, h, _ | .brk _, _, h, _ | .cont _, _, h, _ | .unsupported, _, h, _ => h
  | .conditional _ _ _, _, ⟨test, consequent, alternate, rfl, ht, hc, ha⟩, free => by
      simp only [Stmt.all, Bool.and_eq_true] at free
      exact ⟨test, consequent, alternate, rfl, ht.strict free.1.1.2, hc.strict free.1.2,
        likeAlternate_strict ha free.2⟩
  | .forLoop _ _ _ _, _, ⟨init, test, update, body, rfl, hi, ht, hu, hb⟩, free => by
      simp only [Stmt.all, Bool.and_eq_true] at free
      exact ⟨init, test, update, body, rfl, likeInit_strict hi free.1.1.1.2,
        likeOptional_strict ht free.1.1.2, likeOptional_strict hu free.1.2, hb.strict free.2⟩
  | .whileLoop _ _, _, ⟨test, body, rfl, ht, hb⟩, free => by
      simp only [Stmt.all, Bool.and_eq_true] at free
      exact ⟨test, body, rfl, ht.strict free.1.2, hb.strict free.2⟩
  | .doWhile _ _, _, ⟨body, test, rfl, hb, ht⟩, free => by
      simp only [Stmt.all, Bool.and_eq_true] at free
      exact ⟨body, test, rfl, hb.strict free.1.2, ht.strict free.2⟩
  | .switch _ _, _, ⟨discriminant, cases, rfl, hd, hc⟩, free => by
      simp only [Stmt.all, Bool.and_eq_true] at free
      exact ⟨discriminant, cases, rfl, hd.strict free.1.2, likeCases_strict hc free.2⟩
  | .tryCatch _ _ none, _, ⟨block, handler, _, rfl, hb, hh, rfl⟩, free => by
      simp only [Stmt.all, Bool.and_eq_true] at free
      exact ⟨block, handler, none, rfl, likeStmts_strict hb free.1.1.2,
        likeHandler_strict hh free.1.2, rfl⟩
  | .tryCatch _ _ (some _), _, ⟨_, _, _, rfl, _, _, _, _, rfl, _⟩, free => by
      simp [Checks.finalizerFree, Stmt.hasFinalizer] at free
  | .ret _, _, ⟨value, rfl, h⟩, free => ⟨value, rfl, likeOptional_strict h free⟩
  | .throw _, _, ⟨value, rfl, h⟩, free => ⟨value, rfl, h.strict free⟩
termination_by structural e => e

theorem likeAlternate_strict {V : Veil} : ∀ {s s' : Option Stmt}, likeAlternate V.lenient s s' →
    allAlternate .finalizerFree s' = true → likeAlternate V s s'
  | none, _, h, _ => h
  | some _, _, ⟨statement, rfl, h⟩, free => ⟨statement, rfl, h.strict free⟩
termination_by structural e => e

theorem likeOptional_strict {V : Veil} : ∀ {e e' : Option Expr}, likeOptional V.lenient e e' →
    allOptional .finalizerFree e' = true → likeOptional V e e'
  | none, _, h, _ => h
  | some _, _, ⟨value, rfl, h⟩, free => ⟨value, rfl, h.strict free⟩
termination_by structural e => e

theorem likeInit_strict {V : Veil} : ∀ {i i' : Option ForInit}, likeInit V.lenient i i' →
    allInit .finalizerFree i' = true → likeInit V i i'
  | none, _, h, _ => h
  | some (.declaration _ _), _, ⟨declarators, rfl, h⟩, free =>
      ⟨declarators, rfl, likeDeclarators_strict h free⟩
  | some (.expression _), _, ⟨value, rfl, h⟩, free => ⟨value, rfl, h.strict free⟩
termination_by structural e => e

theorem likeHandler_strict {V : Veil} : ∀ {h h' : Option CatchClause},
    likeHandler V.lenient h h' → allHandler .finalizerFree h' = true → likeHandler V h h'
  | none, _, h, _ => h
  | some ⟨_, _⟩, _, ⟨param, body, rfl, hp, hb⟩, free =>
      ⟨param, body, rfl, hp, likeStmts_strict hb free⟩
termination_by structural e => e

theorem likeStmts_strict {V : Veil} : ∀ {l l' : List Stmt}, likeStmts V.lenient l l' →
    allStmts .finalizerFree l' = true → likeStmts V l l'
  | [], _, h, _ => h
  | _ :: _, _, ⟨statement, rest, rfl, hs, hr⟩, free => by
      simp only [allStmts, Bool.and_eq_true] at free
      exact ⟨statement, rest, rfl, hs.strict free.1, likeStmts_strict hr free.2⟩
termination_by structural e => e

theorem likeCases_strict {V : Veil} : ∀ {l l' : List SwitchCase}, likeCases V.lenient l l' →
    allCases .finalizerFree l' = true → likeCases V l l'
  | [], _, h, _ => h
  | ⟨_, _⟩ :: _, _, ⟨test, body, rest, rfl, ht, hb, hr⟩, free => by
      simp only [allCases, Bool.and_eq_true] at free
      exact ⟨test, body, rest, rfl, likeOptional_strict ht free.1.1, likeStmts_strict hb free.1.2,
        likeCases_strict hr free.2⟩
termination_by structural e => e

theorem likeDeclarators_strict {V : Veil} : ∀ {l l' : List Declarator},
    likeDeclarators V.lenient l l' → allDeclarators .finalizerFree l' = true →
    likeDeclarators V l l'
  | [], _, h, _ => h
  | ⟨_, _⟩ :: _, _, ⟨target, init, rest, rfl, ht, hi, hr⟩, free => by
      simp only [allDeclarators, Bool.and_eq_true] at free
      exact ⟨target, init, rest, rfl, ht, likeOptional_strict hi free.1,
        likeDeclarators_strict hr free.2⟩
termination_by structural e => e

theorem likeParams_strict {V : Veil} : ∀ {l l' : List Pattern}, likeParams V.lenient l l' →
    allParams .finalizerFree l' = true → likeParams V l l'
  | [], _, h, _ => h
  | _ :: _, _, ⟨param, rest, rfl, hp, hr⟩, free => by
      simp only [allParams, Bool.and_eq_true] at free
      exact ⟨param, rest, rfl, hp.strict free.1, likeParams_strict hr free.2⟩
termination_by structural e => e

theorem likeExprs_strict {V : Veil} : ∀ {l l' : List Expr}, likeExprs V.lenient l l' →
    allExprs .finalizerFree l' = true → likeExprs V l l'
  | [], _, h, _ => h
  | _ :: _, _, ⟨e, rest, rfl, he, hr⟩, free => by
      simp only [allExprs, Bool.and_eq_true] at free
      exact ⟨e, rest, rfl, he.strict free.1, likeExprs_strict hr free.2⟩
termination_by structural e => e

theorem likeArguments_strict {V : Veil} : ∀ {l l' : List Expr}, likeExprs V.lenient l l' →
    allArguments .finalizerFree l' = true → likeExprs V l l'
  | [], _, h, _ => h
  | _ :: _, _, ⟨e, rest, rfl, he, hr⟩, free => by
      simp only [allArguments_cons, Bool.and_eq_true] at free
      exact ⟨e, rest, rfl, he.strict (e.allArgument_finalizerFree free.1),
        likeArguments_strict hr free.2⟩
termination_by structural e => e

theorem likeElements_strict {V : Veil} : ∀ {l l' : List (Option Expr)},
    likeElements V.lenient l l' → allElements .finalizerFree l' = true → likeElements V l l'
  | [], _, h, _ => h
  | none :: _, _, ⟨rest, rfl, h⟩, free => ⟨rest, rfl, likeElements_strict h free⟩
  | some _ :: _, _, ⟨e, rest, rfl, he, hr⟩, free => by
      simp only [allElements_cons, Bool.and_eq_true] at free
      exact ⟨e, rest, rfl, he.strict (e.allArgument_finalizerFree free.1),
        likeElements_strict hr free.2⟩
termination_by structural e => e

theorem likeMembers_strict {V : Veil} : ∀ {l l' : List Member}, likeMembers V.lenient l l' →
    allMembers .finalizerFree l' = true → likeMembers V l l'
  | [], _, h, _ => h
  | _ :: _, _, ⟨member, rest, rfl, hm, hr⟩, free => by
      simp only [allMembers, Bool.and_eq_true] at free
      exact ⟨member, rest, rfl, hm.strict free.1, likeMembers_strict hr free.2⟩
termination_by structural e => e

end

/-- A statement seen through a veil that forbids finalizers has none. -/
theorem Stmt.Like.hasFinalizer {V : Veil} (strict : ¬V.finalizers) {s s' : Stmt}
    (h : s.Like V s') : s.hasFinalizer = false := by
  match s, h with
  | .tryCatch _ _ (some _), ⟨_, _, _, _, _, _, finalizers, _⟩ => exact absurd finalizers strict
  | .tryCatch _ _ none, _ => rfl
  | .declaration .., _ | .function _, _ | .expression _, _ | .block _, _ | .empty, _
  | .conditional .., _ | .forLoop .., _ | .whileLoop .., _ | .doWhile .., _ | .switch .., _
  | .ret _, _ | .brk _, _ | .cont _, _ | .throw _, _ | .unsupported, _ => rfl

/-! ## Trees behind no veil -/

mutual

/-- A tree of which nothing may be hidden is like itself only. -/
theorem Expr.Like.eq {V : Veil} (h : ¬V.hides) : ∀ {e e' : Expr}, e.Like V e' → e' = e
  | .ident _, _, he | .literal _, _, he | .this, _, he => he
  | .array _, _, ⟨_, rfl, he⟩ => by rw [likeElements_eq h he]
  | .object _, _, ⟨_, rfl, he⟩ => by rw [likeMembers_eq h he]
  | .function _, _, ⟨_, rfl, he⟩ => by rw [he.eq h]
  | .arrow _, _, ⟨_, rfl, he⟩ => by rw [he.eq h]
  | .template _ _, _, ⟨_, rfl, he⟩ => by rw [likeExprs_eq h he]
  | .unary _ _, _, ⟨_, rfl, he⟩ => by rw [he.eq h]
  | .update _ _ _, _, ⟨_, rfl, he⟩ => by rw [he.eq h]
  | .binary _ _ _, _, ⟨_, _, rfl, hl, hr⟩ => by rw [hl.eq h, hr.eq h]
  | .logical _ _ _, _, ⟨_, _, rfl, hl, hr⟩ => by rw [hl.eq h, hr.eq h]
  | .assign _ _ _, _, ⟨_, _, rfl, ht, hv⟩ => by rw [ht.eq h, hv.eq h]
  | .conditional _ _ _, _, ⟨_, _, _, rfl, ht, hc, ha⟩ => by rw [ht.eq h, hc.eq h, ha.eq h]
  | .sequence _, _, ⟨_, rfl, he⟩ => by rw [likeExprs_eq h he]
  | .access _ _ computed, _, ⟨_, _, rfl, hw, hk⟩ => by
      rw [hw.eq h, hk.eq (V.not_hides_key h computed)]
  | .call _ _, _, ⟨_, _, rfl, hc, ha⟩ => by rw [hc.eq h, likeExprs_eq h ha]
  | .construct _ _, _, ⟨_, _, rfl, hc, ha⟩ => by rw [hc.eq h, likeExprs_eq h ha]
  | .spread _, _, ⟨_, rfl, he⟩ => by rw [he.eq h]
  | .unsupported, _, he => he.resolve_left h
termination_by structural e => e

theorem Target.Like.eq {V : Veil} (h : ¬V.hides) : ∀ {t t' : Target}, t.Like V t' → t' = t
  | .ident _, _, ht | .unsupported, _, ht => ht
  | .access _ _ computed, _, ⟨_, _, rfl, hw, hk⟩ => by
      rw [hw.eq h, hk.eq (V.not_hides_key h computed)]
termination_by structural e => e

theorem Member.Like.eq {V : Veil} (h : ¬V.hides) : ∀ {m m' : Member}, m.Like V m' → m' = m
  | .property _ _ _ computed _ _, _, ⟨_, _, rfl, hk, hv⟩ => by
      rw [hk.eq (V.not_hides_key h computed), hv.eq h]
  | .spread _, _, ⟨_, rfl, hm⟩ => by rw [hm.eq h]
  | .unsupported, _, hm => hm
termination_by structural e => e

theorem Pattern.Like.eq {V : Veil} (h : ¬V.hides) : ∀ {p p' : Pattern}, p.Like V p' → p' = p
  | .ident _, _, hp | .unsupported, _, hp => hp
  | .default _ _, _, ⟨_, _, rfl, ht, hv⟩ => by rw [ht.eq (Veil.not_hides_lenient h), hv.eq h]
  | .rest _, _, ⟨_, rfl, hp⟩ => by rw [hp.eq (Veil.not_hides_lenient h)]
termination_by structural e => e

theorem FunctionCode.Like.eq {V : Veil} (h : ¬V.hides) :
    ∀ {f f' : FunctionCode}, f.Like V f' → f' = f
  | ⟨_, _, _, _, _, _⟩, _, ⟨_, _, rfl, hp, hb⟩ => by rw [likeParams_eq h hp, hb.eq h]
termination_by structural e => e

theorem FunctionBody.Like.eq {V : Veil} (h : ¬V.hides) :
    ∀ {b b' : FunctionBody}, b.Like V b' → b' = b
  | .block _, _, ⟨_, rfl, hb⟩ => by rw [likeStmts_eq h hb]
  | .expression _, _, ⟨_, rfl, hb⟩ => by rw [hb.eq h]
termination_by structural e => e

theorem Stmt.Like.eq {V : Veil} (h : ¬V.hides) : ∀ {s s' : Stmt}, s.Like V s' → s' = s
  | .declaration _ _, _, ⟨_, rfl, hs⟩ => by rw [likeDeclarators_eq h hs]
  | .function _, _, ⟨_, rfl, hs⟩ => by rw [hs.eq h]
  | .expression _, _, ⟨_, rfl, hs⟩ => by rw [hs.eq h]
  | .block _, _, ⟨_, rfl, hs⟩ => by rw [likeStmts_eq h hs]
  | .empty, _, hs | .brk _, _, hs | .cont _, _, hs | .unsupported, _, hs => hs
  | .conditional _ _ _, _, ⟨_, _, _, rfl, ht, hc, ha⟩ => by
      rw [ht.eq h, hc.eq h, likeAlternate_eq h ha]
  | .forLoop _ _ _ _, _, ⟨_, _, _, _, rfl, hi, ht, hu, hb⟩ => by
      rw [likeInit_eq h hi, likeOptional_eq h ht, likeOptional_eq h hu, hb.eq h]
  | .whileLoop _ _, _, ⟨_, _, rfl, ht, hb⟩ => by rw [ht.eq h, hb.eq h]
  | .doWhile _ _, _, ⟨_, _, rfl, hb, ht⟩ => by rw [hb.eq h, ht.eq h]
  | .switch _ _, _, ⟨_, _, rfl, hd, hc⟩ => by rw [hd.eq h, likeCases_eq h hc]
  | .tryCatch _ _ _, _, ⟨_, _, _, rfl, hb, hh, hf⟩ => by
      rw [likeStmts_eq h hb, likeHandler_eq h hh, likeFinalizer_eq h hf]
  | .ret _, _, ⟨_, rfl, hs⟩ => by rw [likeOptional_eq h hs]
  | .throw _, _, ⟨_, rfl, hs⟩ => by rw [hs.eq h]
termination_by structural e => e

theorem likeAlternate_eq {V : Veil} (h : ¬V.hides) :
    ∀ {s s' : Option Stmt}, likeAlternate V s s' → s' = s
  | none, _, hs => hs
  | some _, _, ⟨_, rfl, hs⟩ => by rw [hs.eq h]
termination_by structural e => e

theorem likeOptional_eq {V : Veil} (h : ¬V.hides) :
    ∀ {e e' : Option Expr}, likeOptional V e e' → e' = e
  | none, _, he => he
  | some _, _, ⟨_, rfl, he⟩ => by rw [he.eq h]
termination_by structural e => e

theorem likeInit_eq {V : Veil} (h : ¬V.hides) :
    ∀ {i i' : Option ForInit}, likeInit V i i' → i' = i
  | none, _, hi => hi
  | some (.declaration _ _), _, ⟨_, rfl, hi⟩ => by rw [likeDeclarators_eq h hi]
  | some (.expression _), _, ⟨_, rfl, hi⟩ => by rw [hi.eq h]
termination_by structural e => e

theorem likeCaught_eq {V : Veil} (h : ¬V.hides) :
    ∀ {p p' : Option Pattern}, likeCaught V p p' → p' = p
  | none, _, hp => hp
  | some _, _, ⟨_, rfl, hp⟩ => by rw [hp.eq h]
termination_by structural e => e

theorem likeHandler_eq {V : Veil} (h : ¬V.hides) :
    ∀ {c c' : Option CatchClause}, likeHandler V c c' → c' = c
  | none, _, hc => hc
  | some ⟨_, _⟩, _, ⟨_, _, rfl, hp, hb⟩ => by
      rw [likeCaught_eq (Veil.not_hides_lenient h) hp, likeStmts_eq h hb]
termination_by structural e => e

theorem likeFinalizer_eq {V : Veil} (h : ¬V.hides) :
    ∀ {b b' : Option (List Stmt)}, likeFinalizer V b b' → b' = b
  | none, _, hb => hb
  | some _, _, ⟨_, _, rfl, hb⟩ => by rw [likeStmts_eq h hb]
termination_by structural e => e

theorem likeStmts_eq {V : Veil} (h : ¬V.hides) :
    ∀ {l l' : List Stmt}, likeStmts V l l' → l' = l
  | [], _, hl => hl
  | _ :: _, _, ⟨_, _, rfl, hs, hr⟩ => by rw [hs.eq h, likeStmts_eq h hr]
termination_by structural e => e

theorem likeCases_eq {V : Veil} (h : ¬V.hides) :
    ∀ {l l' : List SwitchCase}, likeCases V l l' → l' = l
  | [], _, hl => hl
  | ⟨_, _⟩ :: _, _, ⟨_, _, _, rfl, ht, hb, hr⟩ => by
      rw [likeOptional_eq h ht, likeStmts_eq h hb, likeCases_eq h hr]
termination_by structural e => e

theorem likeDeclarators_eq {V : Veil} (h : ¬V.hides) :
    ∀ {l l' : List Declarator}, likeDeclarators V l l' → l' = l
  | [], _, hl => hl
  | ⟨_, _⟩ :: _, _, ⟨_, _, _, rfl, ht, hi, hr⟩ => by
      rw [ht.eq (Veil.not_hides_lenient h), likeOptional_eq h hi, likeDeclarators_eq h hr]
termination_by structural e => e

theorem likeParams_eq {V : Veil} (h : ¬V.hides) :
    ∀ {l l' : List Pattern}, likeParams V l l' → l' = l
  | [], _, hl => hl
  | _ :: _, _, ⟨_, _, rfl, hp, hr⟩ => by rw [hp.eq h, likeParams_eq h hr]
termination_by structural e => e

theorem likeExprs_eq {V : Veil} (h : ¬V.hides) :
    ∀ {l l' : List Expr}, likeExprs V l l' → l' = l
  | [], _, hl => hl
  | _ :: _, _, ⟨_, _, rfl, he, hr⟩ => by rw [he.eq h, likeExprs_eq h hr]
termination_by structural e => e

theorem likeElements_eq {V : Veil} (h : ¬V.hides) :
    ∀ {l l' : List (Option Expr)}, likeElements V l l' → l' = l
  | [], _, hl => hl
  | none :: _, _, ⟨_, rfl, hr⟩ => by rw [likeElements_eq h hr]
  | some _ :: _, _, ⟨_, _, rfl, he, hr⟩ => by rw [he.eq h, likeElements_eq h hr]
termination_by structural e => e

theorem likeMembers_eq {V : Veil} (h : ¬V.hides) :
    ∀ {l l' : List Member}, likeMembers V l l' → l' = l
  | [], _, hl => hl
  | _ :: _, _, ⟨_, _, rfl, hm, hr⟩ => by rw [hm.eq h, likeMembers_eq h hr]
termination_by structural e => e

end

/-! ## Forms -/

/-- A hidden expression, or two expressions of one form.  The parts of a function, a member access
and a spread are alike: these are the forms that the evaluator looks into without evaluating the
expression itself. -/
inductive Expr.Form (V : Veil) : Expr → Expr → Prop
  | hidden {e : Expr} (hides : V.hides) : Form V .unsupported e
  | ident (name : String) : Form V (.ident name) (.ident name)
  | literal (l : Literal) : Form V (.literal l) (.literal l)
  | this : Form V .this .this
  | array {a a' : List (Option Expr)} : Form V (.array a) (.array a')
  | object {a a' : List Member} : Form V (.object a) (.object a')
  | function {a a' : FunctionCode} (h : a.Like V a') : Form V (.function a) (.function a')
  | arrow {a a' : FunctionCode} (h : a.Like V a') : Form V (.arrow a) (.arrow a')
  | template {q : List Quasi} {a a' : List Expr} : Form V (.template q a) (.template q a')
  | unary {op : UnaryOp} {a a' : Expr} : Form V (.unary op a) (.unary op a')
  | update {op : UpdateOp} {g : Bool} {a a' : Expr} : Form V (.update op g a) (.update op g a')
  | binary {op : BinaryOp} {a a' b b' : Expr} : Form V (.binary op a b) (.binary op a' b')
  | logical {op : LogicalOp} {a a' b b' : Expr} : Form V (.logical op a b) (.logical op a' b')
  | assign {op : AssignOp} {t t' : Target} {a a' : Expr} :
      Form V (.assign op t a) (.assign op t' a')
  | conditional {a a' b b' c c' : Expr} : Form V (.conditional a b c) (.conditional a' b' c')
  | sequence {a a' : List Expr} : Form V (.sequence a) (.sequence a')
  | access {a a' b b' : Expr} {computed : Bool} (ha : a.Like V a')
      (hb : b.Like (V.key computed) b') : Form V (.access a b computed) (.access a' b' computed)
  | call {a a' : Expr} {b b' : List Expr} : Form V (.call a b) (.call a' b')
  | construct {a a' : Expr} {b b' : List Expr} : Form V (.construct a b) (.construct a' b')
  | spread {a a' : Expr} (h : a.Like V a') : Form V (.spread a) (.spread a')
  | unsupported : Form V .unsupported .unsupported

/-- An expression that is like another has its form, unless it is hidden. -/
theorem Expr.Like.form {V : Veil} : ∀ {e e' : Expr}, e.Like V e' → Expr.Form V e e'
  | .ident name, _, rfl => .ident name
  | .literal l, _, rfl => .literal l
  | .this, _, rfl => .this
  | .array _, _, ⟨_, rfl, _⟩ => .array
  | .object _, _, ⟨_, rfl, _⟩ => .object
  | .function _, _, ⟨_, rfl, h⟩ => .function h
  | .arrow _, _, ⟨_, rfl, h⟩ => .arrow h
  | .template _ _, _, ⟨_, rfl, _⟩ => .template
  | .unary _ _, _, ⟨_, rfl, _⟩ => .unary
  | .update _ _ _, _, ⟨_, rfl, _⟩ => .update
  | .binary _ _ _, _, ⟨_, _, rfl, _⟩ => .binary
  | .logical _ _ _, _, ⟨_, _, rfl, _⟩ => .logical
  | .assign _ _ _, _, ⟨_, _, rfl, _⟩ => .assign
  | .conditional _ _ _, _, ⟨_, _, _, rfl, _⟩ => .conditional
  | .sequence _, _, ⟨_, rfl, _⟩ => .sequence
  | .access _ _ _, _, ⟨_, _, rfl, hw, hk⟩ => .access hw hk
  | .call _ _, _, ⟨_, _, rfl, _⟩ => .call
  | .construct _ _, _, ⟨_, _, rfl, _⟩ => .construct
  | .spread _, _, ⟨_, rfl, h⟩ => .spread h
  | .unsupported, _, .inl hides => .hidden hides
  | .unsupported, _, .inr rfl => .unsupported

/-! ## Hoisted names -/

theorem likeDeclarators_names {V : Veil} : ∀ {l l' : List Declarator}, likeDeclarators V l l' →
    Declarator.names l = Declarator.names l'
  | [], _, rfl => rfl
  | ⟨.ident name, _⟩ :: _, _, ⟨_, _, _, rfl, rfl, _, hr⟩ =>
      congrArg (name :: ·) (likeDeclarators_names hr)
  | ⟨.default _ _, _⟩ :: _, _, ⟨_, _, _, rfl, ⟨_, _, rfl, _⟩, _, hr⟩ =>
      (likeDeclarators_names hr :)
  | ⟨.rest _, _⟩ :: _, _, ⟨_, _, _, rfl, ⟨_, rfl, _⟩, _, hr⟩ => (likeDeclarators_names hr :)
  | ⟨.unsupported, _⟩ :: _, _, ⟨_, _, _, rfl, rfl, _, hr⟩ => (likeDeclarators_names hr :)
termination_by structural l => l

theorem likeDeclarators_hoisted {V : Veil} (kind : DeclarationKind) {l l' : List Declarator}
    (h : likeDeclarators V l l') : hoistedDeclaration kind l = hoistedDeclaration kind l' := by
  cases kind with
  | var => exact likeDeclarators_names h
  | lexical | constant => rfl

theorem likeInit_hoisted {V : Veil} : ∀ {i i' : Option ForInit}, likeInit V i i' →
    ForInit.hoisted i = ForInit.hoisted i'
  | none, _, rfl => rfl
  | some (.declaration kind _), _, ⟨_, rfl, h⟩ => likeDeclarators_hoisted kind h
  | some (.expression _), _, ⟨_, rfl, _⟩ => rfl

mutual

/-- Trees that are alike hoist the same names. -/
theorem Stmt.Like.hoisted {V : Veil} : ∀ {s s' : Stmt}, s.Like V s' → s.hoisted = s'.hoisted
  | .declaration kind _, _, ⟨_, rfl, h⟩ => likeDeclarators_hoisted kind h
  | .function ⟨_, _, _, _, _, _⟩, _, ⟨_, rfl, ⟨_, _, rfl, _⟩⟩ => rfl
  | .expression _, _, ⟨_, rfl, _⟩ => rfl
  | .block _, _, ⟨_, rfl, h⟩ => likeStmts_hoisted h
  | .empty, _, rfl | .brk _, _, rfl | .cont _, _, rfl | .unsupported, _, rfl => rfl
  | .conditional _ _ none, _, ⟨_, _, _, rfl, _, hc, rfl⟩ => by
      simp only [Stmt.hoisted, hc.hoisted]
  | .conditional _ _ (some _), _, ⟨_, _, _, rfl, _, hc, ⟨_, rfl, ha⟩⟩ => by
      simp only [Stmt.hoisted, hc.hoisted, ha.hoisted]
  | .forLoop _ _ _ _, _, ⟨_, _, _, _, rfl, hi, _, _, hb⟩ => by
      simp only [Stmt.hoisted, likeInit_hoisted hi, hb.hoisted]
  | .whileLoop _ _, _, ⟨_, _, rfl, _, hb⟩ => hb.hoisted
  | .doWhile _ _, _, ⟨_, _, rfl, hb, _⟩ => hb.hoisted
  | .switch _ _, _, ⟨_, _, rfl, _, hc⟩ => likeCases_hoisted hc
  | .tryCatch _ none none, _, ⟨_, _, _, rfl, hb, rfl, rfl⟩ => by
      simp only [Stmt.hoisted, likeStmts_hoisted hb]
  | .tryCatch _ none (some _), _, ⟨_, _, _, rfl, hb, rfl, ⟨_, _, rfl, hf⟩⟩ => by
      simp only [Stmt.hoisted, likeStmts_hoisted hb, likeStmts_hoisted hf]
  | .tryCatch _ (some ⟨_, _⟩) none, _, ⟨_, _, _, rfl, hb, ⟨_, _, rfl, _, hh⟩, rfl⟩ => by
      simp only [Stmt.hoisted, CatchClause.hoisted, likeStmts_hoisted hb, likeStmts_hoisted hh]
  | .tryCatch _ (some ⟨_, _⟩) (some _), _,
      ⟨_, _, _, rfl, hb, ⟨_, _, rfl, _, hh⟩, ⟨_, _, rfl, hf⟩⟩ => by
      simp only [Stmt.hoisted, CatchClause.hoisted, likeStmts_hoisted hb, likeStmts_hoisted hh,
        likeStmts_hoisted hf]
  | .ret _, _, ⟨_, rfl, _⟩ => rfl
  | .throw _, _, ⟨_, rfl, _⟩ => rfl
termination_by structural e => e

theorem likeStmts_hoisted {V : Veil} : ∀ {l l' : List Stmt}, likeStmts V l l' →
    hoistedNames l = hoistedNames l'
  | [], _, rfl => rfl
  | _ :: _, _, ⟨_, _, rfl, hs, hr⟩ => by
      simp only [hoistedNames, hs.hoisted, likeStmts_hoisted hr]
termination_by structural e => e

theorem likeCases_hoisted {V : Veil} : ∀ {l l' : List SwitchCase}, likeCases V l l' →
    hoistedCases l = hoistedCases l'
  | [], _, rfl => rfl
  | ⟨_, _⟩ :: _, _, ⟨_, _, _, rfl, _, hb, hr⟩ => by
      simp only [hoistedCases, likeStmts_hoisted hb, likeCases_hoisted hr]
termination_by structural e => e

end

end ScriptTree
