import ScriptTree.Hoisting
import ScriptTree.Proofs.Discipline

/-!
# Declared names and hoisted names

A name is *declared* in a body when a `var` or a function declaration with that name stands anywhere
in its statements.  `VarDeclared` says so by one rule for each place that a statement can stand in,
and it has no rule that leads into a function.

Hoisting collects the declared names (`mem_hoistedNames_iff`) and binds them.  It gives a scope a
binding for each name that the scope does not bind yet, and changes nothing else
(`Machine.Hoists`), so a second time it changes nothing at all.
-/

namespace ScriptTree

/-! ## Declared names -/

/-- A statement declares a name: it is a `var` with that plain name or a function with that name, or
such a statement stands in it at any depth, but not inside a function. -/
inductive VarDeclared (name : String) : Stmt → Prop where
  | var {declarators : List Declarator} {init : Option Expr} :
      ⟨.ident name, init⟩ ∈ declarators → VarDeclared name (.declaration .var declarators)
  | function {code : FunctionCode} : code.name = some name → VarDeclared name (.function code)
  | block {body : List Stmt} {stmt : Stmt} :
      stmt ∈ body → VarDeclared name stmt → VarDeclared name (.block body)
  | consequent {test : Expr} {consequent : Stmt} {alternate : Option Stmt} :
      VarDeclared name consequent → VarDeclared name (.conditional test consequent alternate)
  | alternate {test : Expr} {consequent alternate : Stmt} :
      VarDeclared name alternate → VarDeclared name (.conditional test consequent (some alternate))
  | forInit {declarators : List Declarator} {init test update : Option Expr} {body : Stmt} :
      ⟨.ident name, init⟩ ∈ declarators →
        VarDeclared name (.forLoop (some (.declaration .var declarators)) test update body)
  | forBody {init : Option ForInit} {test update : Option Expr} {body : Stmt} :
      VarDeclared name body → VarDeclared name (.forLoop init test update body)
  | whileBody {test : Expr} {body : Stmt} :
      VarDeclared name body → VarDeclared name (.whileLoop test body)
  | doBody {body : Stmt} {test : Expr} :
      VarDeclared name body → VarDeclared name (.doWhile body test)
  | switchCase {discriminant : Expr} {cases : List SwitchCase} {branch : SwitchCase} {stmt : Stmt} :
      branch ∈ cases → stmt ∈ branch.body → VarDeclared name stmt →
        VarDeclared name (.switch discriminant cases)
  | tryBlock {block : List Stmt} {handler : Option CatchClause} {finalizer : Option (List Stmt)}
      {stmt : Stmt} :
      stmt ∈ block → VarDeclared name stmt → VarDeclared name (.tryCatch block handler finalizer)
  | handler {block : List Stmt} {clause : CatchClause} {finalizer : Option (List Stmt)}
      {stmt : Stmt} :
      stmt ∈ clause.body → VarDeclared name stmt →
        VarDeclared name (.tryCatch block (some clause) finalizer)
  | finalizer {block : List Stmt} {handler : Option CatchClause} {body : List Stmt} {stmt : Stmt} :
      stmt ∈ body → VarDeclared name stmt → VarDeclared name (.tryCatch block handler (some body))

/-- A statement of the body declares the name. -/
def VarDeclaredIn (name : String) (body : List Stmt) : Prop := ∃ stmt ∈ body, VarDeclared name stmt

/-! ## The walk over statements -/

section Walk

variable {name : String}

theorem Declarator.mem_names_iff {declarators : List Declarator} :
    name ∈ names declarators ↔ ∃ init, ⟨.ident name, init⟩ ∈ declarators := by
  rw [names, List.mem_filterMap]
  constructor
  · rintro ⟨⟨target, init⟩, mem, plain⟩
    cases target with
    | ident found =>
        obtain rfl : found = name := by simpa using plain
        exact ⟨init, mem⟩
    | default target value => simp at plain
    | rest target => simp at plain
    | unsupported => simp at plain
  · rintro ⟨init, mem⟩
    exact ⟨_, mem, rfl⟩

theorem mem_hoistedNames_iff_exists {body : List Stmt} :
    name ∈ hoistedNames body ↔ ∃ stmt ∈ body, name ∈ stmt.hoisted := by
  induction body with
  | nil => simp [hoistedNames]
  | cons stmt rest ih => simp [hoistedNames, ih]

theorem mem_hoistedCases_iff_exists {cases : List SwitchCase} :
    name ∈ hoistedCases cases ↔ ∃ branch ∈ cases, name ∈ hoistedNames branch.body := by
  induction cases with
  | nil => simp [hoistedCases]
  | cons branch rest ih =>
      obtain ⟨test, body⟩ := branch
      simp [hoistedCases, ih]

theorem mem_hoisted_conditional {test : Expr} {consequent : Stmt} {alternate : Option Stmt} :
    name ∈ (Stmt.conditional test consequent alternate).hoisted ↔
      name ∈ consequent.hoisted ∨ ∃ stmt, alternate = some stmt ∧ name ∈ stmt.hoisted := by
  cases alternate with
  | none => simp [Stmt.hoisted]
  | some stmt => simp [Stmt.hoisted]

theorem mem_hoisted_tryCatch {block : List Stmt} {handler : Option CatchClause}
    {finalizer : Option (List Stmt)} :
    name ∈ (Stmt.tryCatch block handler finalizer).hoisted ↔ name ∈ hoistedNames block ∨
      (∃ clause, handler = some clause ∧ name ∈ hoistedNames clause.body) ∨
      ∃ body, finalizer = some body ∧ name ∈ hoistedNames body := by
  rcases handler with _ | ⟨param, body⟩ <;> cases finalizer <;>
    simp [Stmt.hoisted, CatchClause.hoisted]

/-- The walk comes to every declaration. -/
theorem VarDeclared.mem_hoisted {stmt : Stmt} (declared : VarDeclared name stmt) :
    name ∈ stmt.hoisted := by
  induction declared with
  | var mem => exact Declarator.mem_names_iff.mpr ⟨_, mem⟩
  | function named => simp [Stmt.hoisted, named]
  | block mem _ ih => exact mem_hoistedNames_iff_exists.mpr ⟨_, mem, ih⟩
  | consequent _ ih => exact mem_hoisted_conditional.mpr (.inl ih)
  | alternate _ ih => exact mem_hoisted_conditional.mpr (.inr ⟨_, rfl, ih⟩)
  | forInit mem => exact List.mem_append_left _ (Declarator.mem_names_iff.mpr ⟨_, mem⟩)
  | forBody _ ih => exact List.mem_append_right _ ih
  | whileBody _ ih => exact ih
  | doBody _ ih => exact ih
  | switchCase branch mem _ ih =>
      exact mem_hoistedCases_iff_exists.mpr
        ⟨_, branch, mem_hoistedNames_iff_exists.mpr ⟨_, mem, ih⟩⟩
  | tryBlock mem _ ih =>
      exact mem_hoisted_tryCatch.mpr (.inl (mem_hoistedNames_iff_exists.mpr ⟨_, mem, ih⟩))
  | handler mem _ ih =>
      have found := mem_hoistedNames_iff_exists.mpr ⟨_, mem, ih⟩
      exact mem_hoisted_tryCatch.mpr (.inr (.inl ⟨_, rfl, found⟩))
  | finalizer mem _ ih =>
      have found := mem_hoistedNames_iff_exists.mpr ⟨_, mem, ih⟩
      exact mem_hoisted_tryCatch.mpr (.inr (.inr ⟨_, rfl, found⟩))

/-- The walk collects declared names only. -/
theorem Stmt.varDeclared_of_mem {stmt : Stmt} (mem : name ∈ stmt.hoisted) :
    VarDeclared name stmt := by
  induction size : sizeOf stmt using Nat.strongRecOn generalizing stmt with
  | ind n ih =>
      -- the induction is on sizes, so that it reaches the statements of lists
      have inBody {body : List Stmt} (less : sizeOf body < n) (here : name ∈ hoistedNames body) :
          VarDeclaredIn name body := by
        obtain ⟨inner, inside, here⟩ := mem_hoistedNames_iff_exists.mp here
        exact ⟨inner, inside, ih _ (Nat.lt_trans (List.sizeOf_lt_of_mem inside) less) here rfl⟩
      subst size
      cases stmt with
      | declaration kind declarators =>
          cases kind with
          | var =>
              obtain ⟨_, plain⟩ := Declarator.mem_names_iff.mp mem
              exact .var plain
          | lexical => cases mem
          | constant => cases mem
      | function code => exact .function (Option.mem_toList.mp mem)
      | block body =>
          obtain ⟨_, inside, declared⟩ := inBody (by simp) mem
          exact .block inside declared
      | conditional test consequent alternate =>
          rcases mem_hoisted_conditional.mp mem with here | ⟨inner, rfl, here⟩
          · exact .consequent (ih _ (by simp +arith) here rfl)
          · exact .alternate (ih _ (by simp +arith) here rfl)
      | forLoop init test update body =>
          rcases List.mem_append.mp mem with here | here
          · match init with
            | some (.declaration .var declarators) =>
                obtain ⟨_, plain⟩ := Declarator.mem_names_iff.mp here
                exact .forInit plain
          · exact .forBody (ih _ (by simp +arith) here rfl)
      | whileLoop test body => exact .whileBody (ih _ (by simp +arith) mem rfl)
      | doWhile body test => exact .doBody (ih _ (by simp +arith) mem rfl)
      | switch discriminant branches =>
          obtain ⟨⟨test, body⟩, branch, here⟩ := mem_hoistedCases_iff_exists.mp mem
          have less := List.sizeOf_lt_of_mem branch
          obtain ⟨_, inside, declared⟩ := inBody (by simp at less ⊢; omega) here
          exact .switchCase branch inside declared
      | tryCatch block handler finalizer =>
          rcases mem_hoisted_tryCatch.mp mem with
            here | ⟨⟨param, body⟩, rfl, here⟩ | ⟨body, rfl, here⟩
          · obtain ⟨_, inside, declared⟩ := inBody (by simp +arith) here
            exact .tryBlock inside declared
          · obtain ⟨_, inside, declared⟩ := inBody (by simp +arith) here
            exact .handler inside declared
          · obtain ⟨_, inside, declared⟩ := inBody (by simp +arith) here
            exact .finalizer inside declared
      | _ => cases mem

/-- The hoisted names of a body are those that it declares. -/
theorem mem_hoistedNames_iff {body : List Stmt} :
    name ∈ hoistedNames body ↔ VarDeclaredIn name body := by
  rw [mem_hoistedNames_iff_exists]
  constructor
  · rintro ⟨stmt, inside, mem⟩
    exact ⟨stmt, inside, Stmt.varDeclared_of_mem mem⟩
  · rintro ⟨stmt, inside, declared⟩
    exact ⟨stmt, inside, declared.mem_hoisted⟩

end Walk

/-! ## Binding names -/

/-- A scope has got a binding to undefined for each of the names that it did not bind, and nothing
else has changed. -/
structure Machine.Hoists (m : Machine) (s : ScopeId) (names : List String) (m' : Machine) :
    Prop where
  bindings : ∀ name, (m'.scope s).bindings.get? name =
    ((m.scope s).bindings.get? name).or (if name ∈ names then some ⟨.undefined, true⟩ else none)
  parent : (m'.scope s).parent = (m.scope s).parent
  receiver : (m'.scope s).receiver = (m.scope s).receiver
  others : ∀ q, q ≠ s → m'.scope q = m.scope q
  size : m'.scopes.size = m.scopes.size
  rest : m' = { m with scopes := m'.scopes }

namespace Machine.Hoists

variable {m m₁ m₂ : Machine} {s : ScopeId} {names names' : List String}

/-- Names that the scope binds are no reason to change anything. -/
theorem refl (bound : ∀ name ∈ names, (m.scope s).bindings.contains name = true) :
    m.Hoists s names m where
  bindings name := by
    cases found : (m.scope s).bindings.get? name with
    | some b => rfl
    | none =>
        have new : name ∉ names := by
          intro mem
          have here := bound name mem
          rw [Table.contains, found] at here
          cases here
        rw [if_neg new, Option.or_none]
  parent := rfl
  receiver := rfl
  others _ _ := rfl
  size := rfl
  rest := rfl

/-- A name that is new. -/
theorem declare (inside : s.index < m.scopes.size) {name : String}
    (new : (m.scope s).bindings.get? name = none) :
    m.Hoists s [name] (m.modifyScope s fun scope =>
      { scope with bindings := scope.bindings.insert name ⟨.undefined, true⟩ }) := by
  have changed : (m.modifyScope s fun scope =>
      { scope with bindings := scope.bindings.insert name ⟨.undefined, true⟩ }).scope s =
        { m.scope s with bindings := (m.scope s).bindings.insert name ⟨.undefined, true⟩ } := by
    rw [scope_modify, if_pos ⟨rfl, inside⟩]
  constructor
  · intro other
    rw [changed]
    by_cases same : other = name
    · simp [same, new]
    · simp [same]
  · rw [changed]
  · rw [changed]
  · intro q other
    rw [scope_modify, if_neg fun same => other same.1]
  · exact Array.size_modify ..
  · rfl

theorem trans (first : m.Hoists s names m₁) (second : m₁.Hoists s names' m₂) :
    m.Hoists s (names ++ names') m₂ where
  bindings name := by
    rw [second.bindings, first.bindings, Option.or_assoc]
    by_cases here : name ∈ names
    · simp [here]
    · simp [here]
  parent := second.parent.trans first.parent
  receiver := second.receiver.trans first.receiver
  others q other := (second.others q other).trans (first.others q other)
  size := second.size.trans first.size
  rest := by rw [second.rest, first.rest]

theorem contains_iff (h : m.Hoists s names m₁) (name : String) :
    (m₁.scope s).bindings.contains name = true ↔
      (m.scope s).bindings.contains name = true ∨ name ∈ names := by
  simp only [Table.contains, h.bindings, Option.isSome_or, Bool.or_eq_true]
  by_cases here : name ∈ names
  · simp [here]
  · simp [here]

end Machine.Hoists

namespace Eval

variable {m : Machine} {s : ScopeId}

theorem declareIfAbsent_hoists (inside : s.index < m.scopes.size) (name : String) :
    ∃ m', declareIfAbsent s name m = .value () m' ∧ m.Hoists s [name] m' := by
  cases bound : (m.scope s).bindings.contains name with
  | true =>
      refine ⟨m, ?_, .refl ?_⟩
      · rw [declareIfAbsent, if_pos bound]
      · simp [bound]
  | false =>
      have new : (m.scope s).bindings.get? name = none := by simpa [Table.contains] using bound
      refine ⟨_, ?_, .declare inside new⟩
      rw [declareIfAbsent, if_neg (by simp [bound])]
      rfl

theorem declareAll_hoists (inside : s.index < m.scopes.size) (names : List String) :
    ∃ m', declareAll s names m = .value () m' ∧ m.Hoists s names m' := by
  induction names generalizing m with
  | nil => exact ⟨m, rfl, .refl (by simp)⟩
  | cons name rest ih =>
      obtain ⟨m₁, declared, first⟩ := declareIfAbsent_hoists inside name
      obtain ⟨m₂, declares, second⟩ := ih (first.size ▸ inside)
      refine ⟨m₂, ?_, first.trans second⟩
      rw [declareAll, bind_of_value declared]
      exact declares

/-- Names that the scope binds are left alone. -/
theorem declareAll_of_bound {names : List String}
    (bound : ∀ name ∈ names, (m.scope s).bindings.contains name = true) :
    declareAll s names m = .value () m := by
  induction names with
  | nil => rfl
  | cons name rest ih =>
      have first : declareIfAbsent s name m = .value () m := by
        rw [declareIfAbsent, if_pos (bound name List.mem_cons_self)]
      rw [declareAll, bind_of_value first]
      exact ih fun later mem => bound later (List.mem_cons_of_mem _ mem)

end Eval

/-- Hoisting a body makes the scope bind exactly the names it bound and those that the body
declares. Bindings that were there stay as they are and the new ones are undefined and may be
assigned to. Nothing else on the machine changes, and hoisting the body again changes nothing. -/
theorem hoist_binds_declared {m : Machine} {s : ScopeId} (inside : s.index < m.scopes.size)
    (body : List Stmt) :
    ∃ m', Eval.hoist s body m = .value () m' ∧
      (∀ name, (m'.scope s).bindings.contains name = true ↔
        (m.scope s).bindings.contains name = true ∨ VarDeclaredIn name body) ∧
      (∀ name b, (m.scope s).bindings.get? name = some b →
        (m'.scope s).bindings.get? name = some b) ∧
      (∀ name b, (m.scope s).bindings.get? name = none →
        (m'.scope s).bindings.get? name = some b → b = ⟨.undefined, true⟩) ∧
      (m'.scope s).parent = (m.scope s).parent ∧
      (m'.scope s).receiver = (m.scope s).receiver ∧
      (∀ q, q ≠ s → m'.scope q = m.scope q) ∧
      m'.scopes.size = m.scopes.size ∧
      m' = { m with scopes := m'.scopes } ∧
      Eval.hoist s body m' = .value () m' := by
  obtain ⟨m', hoisted, hoists⟩ := Eval.declareAll_hoists inside (hoistedNames body)
  refine ⟨m', hoisted, ?_, ?_, ?_, hoists.parent, hoists.receiver, hoists.others, hoists.size,
    hoists.rest, ?_⟩
  · intro name
    rw [hoists.contains_iff, mem_hoistedNames_iff]
  · intro name b old
    rw [hoists.bindings, old, Option.some_or]
  · intro name b old new
    rw [hoists.bindings, old, Option.none_or] at new
    split at new
    · exact (Option.some.inj new).symm
    · cases new
  · apply Eval.declareAll_of_bound
    intro name mem
    exact (hoists.contains_iff name).mpr (.inr mem)

/-- `for (var i;;) try {} catch (e) { function f() { var inner; } } finally { var kept; } let b;` -/
def scatteredDeclarations : List Stmt :=
  [.forLoop (some (.declaration .var [⟨.ident "i", none⟩])) none none
      (.tryCatch []
        (some ⟨some (.ident "e"), [.function ⟨some "f", [],
          .block [.declaration .var [⟨.ident "inner", none⟩]], false, false, none⟩]⟩)
        (some [.declaration .var [⟨.ident "kept", none⟩]])),
    .declaration .lexical [⟨.ident "b", none⟩]]

/-- A machine with one scope, which has a constant. -/
def constantScope : Machine :=
  { Machine.empty with scopes := #[⟨none, .undefined, ⟨[("kept", ⟨.null, false⟩)]⟩⟩] }

/-- The constant of the scope stays, and what a function declares is its own. -/
theorem hoist_binds_declared_nested :
    0 < constantScope.scopes.size ∧ VarDeclaredIn "f" scatteredDeclarations ∧
    ¬VarDeclaredIn "inner" scatteredDeclarations ∧ ¬VarDeclaredIn "b" scatteredDeclarations ∧
    ∃ m', Eval.hoist ⟨0⟩ scatteredDeclarations constantScope = .value () m' ∧
      (m'.scope ⟨0⟩).bindings.contains "i" = true ∧
      (m'.scope ⟨0⟩).bindings.contains "f" = true ∧
      (m'.scope ⟨0⟩).bindings.contains "inner" = false ∧
      (m'.scope ⟨0⟩).bindings.get? "kept" = some ⟨.null, false⟩ ∧
      Eval.hoist ⟨0⟩ scatteredDeclarations m' = .value () m' := by
  have inside : (ScopeId.mk 0).index < constantScope.scopes.size := by decide
  have declared (name : String) : VarDeclaredIn name scatteredDeclarations ↔
      name ∈ ["i", "f", "kept"] := mem_hoistedNames_iff.symm
  obtain ⟨m', hoisted, binds, kept, _, _, _, _, _, _, again⟩ :=
    hoist_binds_declared inside scatteredDeclarations
  simp only [declared] at binds ⊢
  refine ⟨inside, by decide, by decide, by decide, m', hoisted, ?_, ?_, ?_, ?_, again⟩
  · exact (binds "i").mpr (.inr (by decide))
  · exact (binds "f").mpr (.inr (by decide))
  · rw [← Bool.not_eq_true, binds]
    decide
  · exact kept "kept" ⟨.null, false⟩ rfl

end ScriptTree
