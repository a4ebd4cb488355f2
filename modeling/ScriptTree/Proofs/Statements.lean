import ScriptTree.Proofs.Expressions

/-!
# Statements keep a discipline

One rule for each form of statement, up to `execute` itself.  A statement ends with one of the jumps
that can leave it.  It may bind names in the scope it runs in only if it declares some there; what a
block, a `for` loop, a `switch` or a `try` binds goes to scopes of their own.
-/

namespace ScriptTree

namespace Discipline

/-- How a turn of a loop can end. -/
def leaves (D : Discipline) (js : List Jump) (w : D.World) : Turn → Prop
  | .again => True
  | .leave completion => D.ends js w completion

/-- A loop keeps `break` and `continue` of its body inside. -/
theorem Lawful.leaves_turn {D : Discipline} (law : D.Lawful) {w : D.World} {js : List Jump}
    {c : Completion} (h : D.ends js w c) : D.leaves (js.filter (· = .ret)) w c.turn := by
  cases c with
  | normal value => exact trivial
  | cont => exact trivial
  | brk => exact law.primitive_ok w _
  | ret value => exact ⟨h.1, List.mem_filter.mpr ⟨h.2, rfl⟩⟩

/-- Later cases of a `switch` are part of it. -/
theorem Fits.suffix {D : Discipline} (law : D.Lawful) {k : Nat} {w : D.World}
    {cases later : List SwitchCase}
    (h : D.Fits k w (allCases D.checks cases) (sizeOf cases)) (hl : later <:+ cases) :
    D.Fits k w (allCases D.checks later) (sizeOf later) := by
  obtain ⟨earlier, rfl⟩ := hl
  induction earlier with
  | nil => exact h
  | cons clause rest ih =>
      obtain ⟨test, body⟩ := clause
      exact ih (h.part law (by simp +contextual) (by simp +arith))

theorem jumpsOfCases_suffix {cases later : List SwitchCase} (hl : later <:+ cases) :
    jumpsOfCases later ⊆ jumpsOfCases cases := by
  obtain ⟨earlier, rfl⟩ := hl
  induction earlier with
  | nil => exact List.Subset.refl _
  | cons clause rest ih =>
      obtain ⟨test, body⟩ := clause
      exact fun j hj => List.mem_append_right (jumpsOf body) (ih hj)

theorem hoistedCases_suffix {cases later : List SwitchCase} (hl : later <:+ cases) :
    hoistedCases later ⊆ hoistedCases cases := by
  obtain ⟨earlier, rfl⟩ := hl
  induction earlier with
  | nil => exact List.Subset.refl _
  | cons clause rest ih =>
      obtain ⟨test, body⟩ := clause
      exact fun name hn => List.mem_append_right (hoistedNames body) (ih hn)

namespace ready

variable {D : Discipline} {w : D.World} {s : ScopeId} {names names' : List String}

theorem subset (h : D.ready w s names) (hn : names' ⊆ names) : D.ready w s names' :=
  fun name hmem => h name (hn hmem)

theorem left (h : D.ready w s (names ++ names')) : D.ready w s names :=
  h.subset (List.subset_append_left names names')

theorem right (h : D.ready w s (names ++ names')) : D.ready w s names' :=
  h.subset (List.subset_append_right names names')

/-- The parts of a `try` statement. -/
theorem tryCatch {block : List Stmt} {handler : Option CatchClause}
    {finalizer : Option (List Stmt)}
    (h : D.ready w s (Stmt.tryCatch block handler finalizer).hoisted) :
    D.ready w s (hoistedNames block) ∧
      (∀ clause, handler = some clause → D.ready w s (hoistedNames clause.body)) ∧
      ∀ body, finalizer = some body → D.ready w s (hoistedNames body) := by
  have parts : (Stmt.tryCatch block handler finalizer).hoisted =
      hoistedNames block ++ (handler.elim [] fun clause => hoistedNames clause.body) ++
        finalizer.elim [] hoistedNames := by
    rcases handler with _ | ⟨param, body⟩ <;> cases finalizer <;> rfl
  rw [parts] at h
  refine ⟨h.left.left, ?_, ?_⟩
  · rintro clause rfl
    exact h.left.right
  · rintro body rfl
    exact h.right

end ready

namespace Matches

variable {D : Discipline} {k : Nat} {r r' : Runner} (h : D.Matches k r r') {fp : Footprint}
  {w : D.World} {s : ScopeId}
include h

/-! ## Statement lists -/

theorem exec {stmt : Stmt} (hst : D.Fits k w (stmt.all D.checks) (sizeOf stmt))
    (hs : D.scope w s) (ready : D.ready w s stmt.hoisted)
    (hfp : stmt.declares = true → fp.scope = some s) :
    D.Keeps fp w (r.exec s stmt) (r'.exec s stmt) (D.ends stmt.jumps) := by
  refine (h.run (.exec stmt s) w ⟨hst, hs, ready⟩).reach fun w' hw => ?_
  -- what declares nothing has run without a footprint
  rw [Task.footprint] at hw
  obtain ⟨scope, target⟩ := fp
  by_cases hd : stmt.declares = true
  · cases hfp hd
    rw [if_pos hd] at hw
    exact h.law.widenTarget hw
  · rw [if_neg hd] at hw
    exact h.law.widenScope (h.law.widenTarget hw)

theorem statements {body : List Stmt} {last : Value}
    (hb : D.Fits k w (allStmts D.checks body) (sizeOf body)) (hs : D.scope w s)
    (ready : D.ready w s (hoistedNames body)) (hfp : fp.scope = some s) (hv : D.value w last) :
    D.Keeps fp w (r.statements s last body) (r'.statements s last body)
      (D.ends (jumpsOf body)) := by
  induction body generalizing w last with
  | nil => exact h.law.pure hv
  | cons stmt rest ih =>
      have hfirst : D.Fits k w (stmt.all D.checks) (sizeOf stmt) :=
        hb.part h.law (by simp +contextual) (by simp +arith)
      have hrest : D.Fits k w (allStmts D.checks rest) (sizeOf rest) :=
        hb.part h.law (by simp +contextual) (by simp +arith)
      refine h.law.bind (h.exec hfirst hs ready.left fun _ => hfp) fun completion w' hw hc => ?_
      have hout := hc.subset (List.subset_append_left stmt.jumps (jumpsOf rest))
      match completion with
      | .normal value =>
          have hready := h.law.ready_mono hw ready.right
          refine (ih (hrest.mono h.law hw) (h.law.scope_mono hw hs) hready hc).post ?_
          exact fun _ _ _ hc => hc.subset (List.subset_append_right stmt.jumps (jumpsOf rest))
      | .ret value => exact h.law.pure hout
      | .brk => exact h.law.pure hout
      | .cont => exact h.law.pure hout

theorem block {body : List Stmt} (hb : D.Fits k w (allStmts D.checks body) (sizeOf body))
    (hs : D.scope w s) (ready : D.ready w s (hoistedNames body)) :
    D.Keeps fp w (r.block s body) (r'.block s body) (D.ends (jumpsOf body)) :=
  h.law.inChild hs fun _ w' hw hi seen =>
    h.statements (hb.mono h.law hw) hi (seen _ ready) rfl (h.law.primitive_ok w' _)

/-! ## Declarations -/

theorem bindHoisted {v : Value} (strict : Bool) (name : String) (hs : D.scope w s)
    (hfp : fp.scope = some s) (hv : D.value w v) :
    D.Keeps fp w (Runner.bindHoisted s name v (Eval.writeBinding strict))
      (Runner.bindHoisted s name v (Eval.writeBinding strict)) fun _ _ => True := by
  refine h.law.bind (h.law.isBound s name) fun _ w' hw _ => ?_
  have hv' := h.law.value_mono hw hv
  exact .ite (fun _ => h.law.writeBinding strict s name hv') fun _ =>
    h.law.declare name true (h.law.scope_mono hw hs) hv' hfp

theorem declarator {init : Option Expr} (kind : DeclarationKind) (name : String)
    (hi : D.Fits k w (allOptional D.checks init) (sizeOf init)) (hs : D.scope w s)
    (hfp : fp.scope = some s) :
    D.Keeps fp w (r.declarator s kind name init) (r'.declarator s kind name init)
      fun _ _ => True := by
  cases init with
  | none =>
      cases kind with
      | var => exact h.law.pure trivial
      | lexical => exact h.law.declare name _ hs (h.law.primitive_ok w _) hfp
      | constant => exact h.law.declare name _ hs (h.law.primitive_ok w _) hfp
  | some e =>
      have he : D.Fits k w (e.all D.checks) (sizeOf e) :=
        hi.part h.law (by simp +contextual) (by simp +arith)
      cases kind with
      | var =>
          refine h.law.bind (h.evalNamed name he hs) fun v w' hw hv => ?_
          exact h.bindHoisted false name (h.law.scope_mono hw hs) hfp hv
      | lexical =>
          refine h.law.bind (h.evalNamed name he hs) fun v w' hw hv => ?_
          exact h.law.declare name _ (h.law.scope_mono hw hs) hv hfp
      | constant =>
          refine h.law.bind (h.evalNamed name he hs) fun v w' hw hv => ?_
          exact h.law.declare name _ (h.law.scope_mono hw hs) hv hfp

theorem declarators {ds : List Declarator} (kind : DeclarationKind)
    (hd : D.Fits k w (allDeclarators D.checks ds) (sizeOf ds)) (hs : D.scope w s)
    (hfp : fp.scope = some s)
    (plain : D.checks.Refines .supported → Declarator.arePlain ds = true) :
    D.Keeps fp w (r.declarators s kind ds) (r'.declarators s kind ds) fun _ _ => True := by
  induction ds generalizing w with
  | nil => exact h.law.pure trivial
  | cons first rest ih =>
      obtain ⟨target, init⟩ := first
      have hinit : D.Fits k w (allOptional D.checks init) (sizeOf init) :=
        hd.part h.law (by simp +contextual) (by simp +arith)
      have hrest : D.Fits k w (allDeclarators D.checks rest) (sizeOf rest) :=
        hd.part h.law (by simp +contextual) (by simp +arith)
      rw [Declarator.arePlain, List.all_cons, Bool.and_eq_true] at plain
      cases target with
      | ident name =>
          refine h.law.bind (h.declarator kind name hinit hs hfp) fun _ w' hw _ => ?_
          exact ih (hrest.mono h.law hw) (h.law.scope_mono hw hs) fun refines => (plain refines).2
      | _ => exact h.law.unsupported fun refines => nomatch (plain refines).1

theorem functionDeclaration {code : FunctionCode}
    (hc : D.Fits k w (code.all D.checks) (sizeOf code)) (hs : D.scope w s)
    (hfp : fp.scope = some s)
    (named : D.checks.Refines .supported → code.name.isSome = true) :
    D.Keeps fp w (Runner.functionDeclaration s code) (Runner.functionDeclaration s code)
      fun _ _ => True := by
  unfold Runner.functionDeclaration
  cases hn : code.name with
  | none =>
      rw [hn] at named
      exact h.law.internalFault_of fun refines => nomatch named refines
  | some name =>
      refine h.law.bind (h.law.instantiate false none hs (hc.code h.law)) fun v w' hw hv => ?_
      exact h.bindHoisted true name (h.law.scope_mono hw hs) hfp (h.law.slot_value hv)

/-! ## Loops -/

/-- What every turn keeps, the loop keeps. -/
theorem iterate {js : List Jump} {turn turn' : Eval Turn} {n n' : Nat} (hn : n ≤ n')
    (inStep : (∃ w, D.inStep w) → n = n') (may : D.mayExhaust)
    (hturn : ∀ w', D.reaches fp w w' → D.Keeps fp w' turn turn' (D.leaves js)) :
    D.Keeps fp w (Eval.iterate turn n) (Eval.iterate turn' n') (D.ends js) := by
  -- on the turns of the first runner; the second may have more of them and is exhausted later
  induction n generalizing w n' with
  | zero =>
      refine .exhausted w (h.law.refl fp w) rfl may fun step => ?_
      cases inStep ⟨w, step⟩
      rfl
  | succ n ih =>
      obtain ⟨n', rfl⟩ : ∃ m, n' = m + 1 := ⟨n' - 1, by omega⟩
      refine h.law.bind (hturn w (h.law.refl fp w)) fun result w' hw hr => ?_
      match result with
      | .leave completion => exact h.law.pure hr
      | .again =>
          refine ih (Nat.le_of_succ_le_succ hn) (fun step => Nat.succ.inj (inStep step)) ?_
          exact fun w'' hw' => hturn w'' (h.law.trans hw hw')

theorem whileTurn {test : Expr} {body : Stmt}
    (ht : D.Fits k w (test.all D.checks) (sizeOf test))
    (hb : D.Fits k w (body.all D.checks) (sizeOf body)) (hs : D.scope w s)
    (ready : D.ready w s body.hoisted) (hfp : body.declares = true → fp.scope = some s) :
    D.Keeps fp w (r.whileTurn s test body) (r'.whileTurn s test body)
      (D.leaves (body.jumps.filter (· = .ret))) := by
  refine h.law.bind (h.law.widen (h.agree.checkTimeout w)) fun _ w₁ h₁ _ => ?_
  refine h.law.bind (h.eval (ht.mono h.law h₁) (h.law.scope_mono h₁ hs)) fun v w₂ h₂ _ => ?_
  have h₃ := h.law.trans h₁ h₂
  refine .ite (fun _ => ?_) fun _ => h.law.pure (h.law.primitive_ok w₂ _)
  refine h.law.bind (h.exec (hb.mono h.law h₃) (h.law.scope_mono h₃ hs)
    (h.law.ready_mono h₃ ready) hfp) ?_
  exact fun _ _ _ hc => h.law.pure (h.law.leaves_turn hc)

theorem doWhileTurn {body : Stmt} {test : Expr}
    (hb : D.Fits k w (body.all D.checks) (sizeOf body))
    (ht : D.Fits k w (test.all D.checks) (sizeOf test)) (hs : D.scope w s)
    (ready : D.ready w s body.hoisted) (hfp : body.declares = true → fp.scope = some s) :
    D.Keeps fp w (r.doWhileTurn s body test) (r'.doWhileTurn s body test)
      (D.leaves (body.jumps.filter (· = .ret))) := by
  refine h.law.bind (h.law.widen (h.agree.checkTimeout w)) fun _ w₁ h₁ _ => ?_
  refine h.law.bind (h.exec (hb.mono h.law h₁) (h.law.scope_mono h₁ hs)
    (h.law.ready_mono h₁ ready) hfp) ?_
  intro completion w₂ h₂ hc
  have hleave := h.law.leaves_turn hc
  have h₃ := h.law.trans h₁ h₂
  match hturn : completion.turn with
  | .leave result =>
      rw [hturn] at hleave
      exact h.law.pure hleave
  | .again =>
      refine h.law.bind (h.eval (ht.mono h.law h₃) (h.law.scope_mono h₃ hs)) fun _ w₄ _ _ => ?_
      exact .ite (fun _ => h.law.pure trivial) fun _ => h.law.pure (h.law.primitive_ok w₄ _)

theorem forTest {test : Option Expr} (ht : D.Fits k w (allOptional D.checks test) (sizeOf test))
    (hs : D.scope w s) :
    D.Keeps fp w (r.forTest s test) (r'.forTest s test) fun _ _ => True := by
  cases test with
  | none => exact h.law.pure trivial
  | some e =>
      have he : D.Fits k w (e.all D.checks) (sizeOf e) :=
        ht.part h.law (by simp +contextual) (by simp +arith)
      exact h.law.bind (h.eval he hs) fun _ _ _ _ => h.law.pure trivial

theorem forUpdate {update : Option Expr}
    (hu : D.Fits k w (allOptional D.checks update) (sizeOf update)) (hs : D.scope w s) :
    D.Keeps fp w (r.forUpdate s update) (r'.forUpdate s update) fun _ _ => True := by
  cases update with
  | none => exact h.law.pure trivial
  | some e =>
      have he : D.Fits k w (e.all D.checks) (sizeOf e) :=
        hu.part h.law (by simp +contextual) (by simp +arith)
      exact h.law.bind (h.eval he hs) fun _ _ _ _ => h.law.pure trivial

theorem forTurn {test update : Option Expr} {body : Stmt}
    (ht : D.Fits k w (allOptional D.checks test) (sizeOf test))
    (hu : D.Fits k w (allOptional D.checks update) (sizeOf update))
    (hb : D.Fits k w (body.all D.checks) (sizeOf body)) (hs : D.scope w s)
    (ready : D.ready w s body.hoisted) (hfp : body.declares = true → fp.scope = some s) :
    D.Keeps fp w (r.forTurn s test update body) (r'.forTurn s test update body)
      (D.leaves (body.jumps.filter (· = .ret))) := by
  refine h.law.bind (h.law.widen (h.agree.checkTimeout w)) fun _ w₁ h₁ _ => ?_
  refine h.law.bind (h.forTest (ht.mono h.law h₁) (h.law.scope_mono h₁ hs)) fun _ w₂ h₂ _ => ?_
  have h₃ := h.law.trans h₁ h₂
  refine .ite (fun _ => ?_) fun _ => h.law.pure (h.law.primitive_ok w₂ _)
  refine h.law.bind (h.exec (hb.mono h.law h₃) (h.law.scope_mono h₃ hs)
    (h.law.ready_mono h₃ ready) hfp) ?_
  intro completion w₄ h₄ hc
  have hleave := h.law.leaves_turn hc
  have h₅ := h.law.trans h₃ h₄
  match hturn : completion.turn with
  | .leave result =>
      rw [hturn] at hleave
      exact h.law.pure hleave
  | .again =>
      exact h.law.bind (h.forUpdate (hu.mono h.law h₅) (h.law.scope_mono h₅ hs)) fun _ _ _ _ =>
        h.law.pure trivial

theorem forInit {init : Option ForInit} (hi : D.Fits k w (allInit D.checks init) (sizeOf init))
    (hs : D.scope w s) (hfp : fp.scope = some s)
    (plain : D.checks.Refines .supported → ForInit.isSupported init = true) :
    D.Keeps fp w (r.forInit s init) (r'.forInit s init) fun _ _ => True := by
  match init with
  | none => exact h.law.pure trivial
  | some (.declaration kind ds) =>
      have hds : D.Fits k w (allDeclarators D.checks ds) (sizeOf ds) :=
        hi.part h.law (by simp +contextual) (by simp +arith)
      exact h.declarators kind hds hs hfp plain
  | some (.expression e) =>
      have he : D.Fits k w (e.all D.checks) (sizeOf e) :=
        hi.part h.law (by simp +contextual) (by simp +arith)
      exact h.law.bind (h.eval he hs) fun _ _ _ _ => h.law.pure trivial

theorem forLoop {init : Option ForInit} {test update : Option Expr} {body : Stmt}
    (hi : D.Fits k w (allInit D.checks init) (sizeOf init))
    (ht : D.Fits k w (allOptional D.checks test) (sizeOf test))
    (hu : D.Fits k w (allOptional D.checks update) (sizeOf update))
    (hb : D.Fits k w (body.all D.checks) (sizeOf body)) (hs : D.scope w s)
    (ready : D.ready w s body.hoisted)
    (plain : D.checks.Refines .supported → ForInit.isSupported init = true)
    (may : D.mayExhaust) :
    D.Keeps fp w (r.forLoop s init test update body) (r'.forLoop s init test update body)
      (D.ends (body.jumps.filter (· = .ret))) := by
  refine h.law.inChild hs fun inner w₁ h₁ hs₁ seen => ?_
  refine h.law.bind (h.forInit (hi.mono h.law h₁) hs₁ rfl plain) fun _ w₂ h₂ _ => ?_
  refine h.iterate h.turns h.turns_inStep may fun w₃ h₃ => ?_
  have h₂₃ := h.law.trans h₂ h₃
  have h₄ := h.law.trans h₁ h₂₃
  exact h.forTurn (ht.mono h.law h₄) (hu.mono h.law h₄) (hb.mono h.law h₄)
    (h.law.scope_mono h₂₃ hs₁) (h.law.ready_mono h₂₃ (seen _ ready)) fun _ => rfl

/-! ## Switch -/

theorem matchingCases {discriminant : Value} {cases : List SwitchCase}
    (hc : D.Fits k w (allCases D.checks cases) (sizeOf cases)) (hs : D.scope w s) :
    D.Keeps fp w (r.matchingCases s discriminant cases) (r'.matchingCases s discriminant cases)
      fun _ found => ∀ later, found = some later → later <:+ cases := by
  induction cases generalizing w with
  | nil => exact h.law.pure fun later hl => nomatch hl
  | cons clause rest ih =>
      obtain ⟨test, body⟩ := clause
      have hrest : D.Fits k w (allCases D.checks rest) (sizeOf rest) :=
        hc.part h.law (by simp +contextual) (by simp +arith)
      have passed {w' : D.World} (hw : D.reaches fp w w') :
          D.Keeps fp w' (r.matchingCases s discriminant rest)
            (r'.matchingCases s discriminant rest)
            fun _ found => ∀ later, found = some later → later <:+ ⟨test, body⟩ :: rest :=
        (ih (hrest.mono h.law hw) (h.law.scope_mono hw hs)).post fun _ _ _ hl later found =>
          (hl later found).trans (List.suffix_cons _ rest)
      cases test with
      | none => exact passed (h.law.refl fp w)
      | some e =>
          have he : D.Fits k w (e.all D.checks) (sizeOf e) :=
            hc.part h.law (by simp +contextual) (by simp +arith)
          refine h.law.bind (h.eval he hs) fun v w' hw _ => ?_
          refine .ite (fun _ => h.law.pure fun later hl => ?_) fun _ => passed hw
          cases hl
          exact List.suffix_rfl

theorem runCases {cases : List SwitchCase}
    (hc : D.Fits k w (allCases D.checks cases) (sizeOf cases)) (hs : D.scope w s)
    (ready : D.ready w s (hoistedCases cases)) (hfp : fp.scope = some s) :
    D.Keeps fp w (r.runCases s cases) (r'.runCases s cases)
      (D.ends ((jumpsOfCases cases).filter (· ≠ .brk))) := by
  induction cases generalizing w with
  | nil => exact h.law.pure (h.law.primitive_ok w _)
  | cons clause rest ih =>
      obtain ⟨test, body⟩ := clause
      have hbody : D.Fits k w (allStmts D.checks body) (sizeOf body) :=
        hc.part h.law (by simp +contextual) (by simp +arith)
      have hrest : D.Fits k w (allCases D.checks rest) (sizeOf rest) :=
        hc.part h.law (by simp +contextual) (by simp +arith)
      refine h.law.bind (h.statements hbody hs ready.left hfp (h.law.primitive_ok w _)) ?_
      intro completion w' hw hends
      have here {j : Jump} (hj : j ∈ jumpsOf body) (hne : j ≠ .brk) :
          j ∈ (jumpsOf body ++ jumpsOfCases rest).filter (· ≠ .brk) :=
        List.mem_filter.mpr ⟨List.mem_append_left _ hj, decide_eq_true hne⟩
      match completion with
      | .normal value =>
          have hready := h.law.ready_mono hw ready.right
          refine (ih (hrest.mono h.law hw) (h.law.scope_mono hw hs) hready).post fun _ _ _ hc => ?_
          refine hc.subset fun j hj => ?_
          obtain ⟨hj, hne⟩ := List.mem_filter.mp hj
          exact List.mem_filter.mpr ⟨List.mem_append_right _ hj, hne⟩
      | .brk => exact h.law.pure (h.law.primitive_ok w' _)
      | .cont => exact h.law.pure (here hends (by decide))
      | .ret value => exact h.law.pure ⟨hends.1, here hends.2 (by decide)⟩

theorem switch {discriminant : Expr} {cases : List SwitchCase}
    (hd : D.Fits k w (discriminant.all D.checks) (sizeOf discriminant))
    (hc : D.Fits k w (allCases D.checks cases) (sizeOf cases)) (hs : D.scope w s)
    (ready : D.ready w s (hoistedCases cases)) :
    D.Keeps fp w (r.switch s discriminant cases) (r'.switch s discriminant cases)
      (D.ends ((jumpsOfCases cases).filter (· ≠ .brk))) := by
  refine h.law.bind (h.eval hd hs) fun value w₁ h₁ _ => ?_
  refine h.law.inChild (h.law.scope_mono h₁ hs) fun inner w₂ h₂ hs₂ seen => ?_
  have hc₂ := (hc.mono h.law h₁).mono h.law h₂
  refine h.law.bind (h.matchingCases hc₂ hs₂) fun found w₃ h₃ hfound => ?_
  -- control falls through from the case that matches, so what runs is a suffix
  have runs {later : List SwitchCase} (hl : later <:+ cases) :
      D.Keeps ⟨some inner, fp.target⟩ w₃ (r.runCases inner later) (r'.runCases inner later)
        (D.ends ((jumpsOfCases cases).filter (· ≠ .brk))) := by
    have hlater := (hc₂.mono h.law h₃).suffix h.law hl
    have hready := h.law.ready_mono h₃ (seen _ (h.law.ready_mono h₁ ready))
    refine (h.runCases hlater (h.law.scope_mono h₃ hs₂) (hready.subset (hoistedCases_suffix hl))
      rfl).post fun _ _ _ hends => ?_
    exact hends.subset (List.filter_subset _ (jumpsOfCases_suffix hl))
  match found with
  | some later => exact runs (hfound later rfl)
  | none => exact runs (List.dropWhile_suffix _)

/-! ## Try -/

theorem bindCaught {f : Fault} {param : Option Pattern} (hf : D.fault w f) (hs : D.scope w s)
    (hfp : fp.scope = some s)
    (plain : D.checks.Refines .supported → ∀ p, param = some p → p.isIdent = true) :
    D.Keeps fp w (Runner.bindCaught s f param) (Runner.bindCaught s f param)
      fun _ _ => True := by
  cases param with
  | none => exact h.law.pure trivial
  | some pattern =>
      cases pattern with
      | ident name =>
          refine h.law.bind (h.law.faultValue hf) fun caught w' hw hv => ?_
          exact h.law.declare name true (h.law.scope_mono hw hs) hv hfp
      | _ => exact h.law.unsupported fun refines => nomatch plain refines _ rfl

theorem handle {clause : CatchClause} {f : Fault}
    (hb : D.Fits k w (allStmts D.checks clause.body) (sizeOf clause.body)) (hf : D.fault w f)
    (hs : D.scope w s) (ready : D.ready w s (hoistedNames clause.body))
    (plain : D.checks.Refines .supported → ∀ p, clause.param = some p → p.isIdent = true) :
    D.Keeps fp w (r.handle s clause f) (r'.handle s clause f)
      (D.attempted (D.ends (jumpsOf clause.body))) := by
  refine h.law.inChild hs fun inner w₁ h₁ hs₁ seen => ?_
  refine h.law.bind (h.bindCaught (h.law.fault_mono h₁ hf) hs₁ rfl plain) fun _ w₂ h₂ _ => ?_
  exact (h.block ((hb.mono h.law h₁).mono h.law h₂) (h.law.scope_mono h₂ hs₁)
    (h.law.ready_mono h₂ (seen _ ready))).attempt

theorem handled {handler : Option CatchClause} {result : Except Fault Completion}
    {js : List Jump} (hh : D.Fits k w (allHandler D.checks handler) (sizeOf handler))
    (hr : D.attempted (D.ends js) w result) (hs : D.scope w s)
    (ready : ∀ clause, handler = some clause → D.ready w s (hoistedNames clause.body))
    (plain : D.checks.Refines .supported → CatchClause.isSupported handler = true) :
    D.Keeps fp w (r.handled s handler result) (r'.handled s handler result)
      (D.attempted (D.ends (js ++ jumpsOfHandler handler))) := by
  have same : D.attempted (D.ends (js ++ jumpsOfHandler handler)) w result := by
    cases result with
    | ok completion => exact hr.subset (List.subset_append_left _ _)
    | error f => exact hr
  match handler, result with
  | none, _ => exact h.law.pure same
  | some _, .ok _ => exact h.law.pure same
  | some ⟨param, body⟩, .error f =>
      refine .ite (fun _ => ?_) fun _ => h.law.pure same
      have hbody : D.Fits k w (allStmts D.checks body) (sizeOf body) :=
        hh.part h.law (by simp +contextual) (by simp +arith)
      have plain' (refines : D.checks.Refines .supported) (p : Pattern) (hp : param = some p) :
          p.isIdent = true := by
        subst hp
        exact plain refines
      refine (h.handle hbody hr hs (ready _ rfl) plain').post fun _ result _ hr => ?_
      cases result with
      | ok completion => exact hr.subset (List.subset_append_right _ _)
      | error f => exact hr

theorem ofAttempt {result : Except Fault Completion} {js : List Jump}
    (hr : D.attempted (D.ends js) w result) :
    D.Keeps fp w (Eval.ofAttempt result) (Eval.ofAttempt result) (D.ends js) := by
  cases result with
  | ok completion => exact h.law.pure hr
  | error f => exact h.law.fail hr

theorem finish {finalizer : Option (List Stmt)} {result : Except Fault Completion}
    {js : List Jump} (hf : D.Fits k w (allFinalizer D.checks finalizer) (sizeOf finalizer))
    (hr : D.attempted (D.ends js) w result) (hs : D.scope w s)
    (ready : ∀ body, finalizer = some body → D.ready w s (hoistedNames body)) :
    D.Keeps fp w (r.finish s finalizer result) (r'.finish s finalizer result)
      (D.ends (js ++ jumpsOfFinalizer finalizer)) := by
  -- a finalizer that ends normally leaves the result of the attempt as it is
  have left {w' : D.World} (hw : D.reaches fp w w') :
      D.Keeps fp w' (Eval.ofAttempt result) (Eval.ofAttempt result)
        (D.ends (js ++ jumpsOfFinalizer finalizer)) := by
    have hr' : D.attempted (D.ends js) w' result := by
      cases result with
      | ok completion => exact h.law.ends_mono hw hr
      | error f => exact h.law.fault_mono hw hr
    exact (h.ofAttempt hr').post fun _ _ _ hc => hc.subset (List.subset_append_left _ _)
  cases finalizer with
  | none => exact left (h.law.refl fp w)
  | some body =>
      have hbody : D.Fits k w (allStmts D.checks body) (sizeOf body) :=
        hf.part h.law (by simp +contextual) (by simp +arith)
      refine h.law.bind (h.block hbody hs (ready body rfl)) fun completion w' hw hc => ?_
      have hout := hc.subset (List.subset_append_right js (jumpsOf body))
      match completion with
      | .normal _ => exact left hw
      | .ret _ => exact h.law.pure hout
      | .brk => exact h.law.pure hout
      | .cont => exact h.law.pure hout

theorem tryCatch {block : List Stmt} {handler : Option CatchClause}
    {finalizer : Option (List Stmt)}
    (hb : D.Fits k w (allStmts D.checks block) (sizeOf block))
    (hh : D.Fits k w (allHandler D.checks handler) (sizeOf handler))
    (hf : D.Fits k w (allFinalizer D.checks finalizer) (sizeOf finalizer)) (hs : D.scope w s)
    (ready : D.ready w s (hoistedNames block))
    (readyHandler : ∀ clause, handler = some clause → D.ready w s (hoistedNames clause.body))
    (readyFinalizer : ∀ body, finalizer = some body → D.ready w s (hoistedNames body))
    (plain : D.checks.Refines .supported → CatchClause.isSupported handler = true) :
    D.Keeps fp w (r.tryCatch s block handler finalizer) (r'.tryCatch s block handler finalizer)
      (D.ends (jumpsOf block ++ (jumpsOfHandler handler ++ jumpsOfFinalizer finalizer))) := by
  refine h.law.bind (h.block hb hs ready).attempt fun result w₁ h₁ hr => ?_
  have hs₁ := h.law.scope_mono h₁ hs
  refine h.law.bind (h.handled (hh.mono h.law h₁) hr hs₁
    (fun clause hc => h.law.ready_mono h₁ (readyHandler clause hc)) plain) ?_
  intro result w₂ h₂ hr
  rw [← List.append_assoc]
  exact h.finish ((hf.mono h.law h₁).mono h.law h₂) hr (h.law.scope_mono h₂ hs₁) fun body hbody =>
    h.law.ready_mono h₂ (h.law.ready_mono h₁ (readyFinalizer body hbody))

/-! ## All statements -/

theorem conditional {test : Expr} {consequent : Stmt} {alternate : Option Stmt}
    (ht : D.Fits k w (test.all D.checks) (sizeOf test))
    (hc : D.Fits k w (consequent.all D.checks) (sizeOf consequent))
    (ha : D.Fits k w (allAlternate D.checks alternate) (sizeOf alternate)) (hs : D.scope w s)
    (ready : D.ready w s (Stmt.conditional test consequent alternate).hoisted)
    (hfp : (Stmt.conditional test consequent alternate).declares = true → fp.scope = some s) :
    D.Keeps fp w (r.execute s (.conditional test consequent alternate))
      (r'.execute s (.conditional test consequent alternate))
      (D.ends (Stmt.conditional test consequent alternate).jumps) := by
  refine h.law.bind (h.eval ht hs) fun v w' hw _ => ?_
  have hs' := h.law.scope_mono hw hs
  have ready' := h.law.ready_mono hw ready
  refine .ite (fun _ => ?_) fun _ => ?_
  · have hready : D.ready w' s consequent.hoisted := by
      cases alternate <;> exact ready'.left
    refine (h.exec (hc.mono h.law hw) hs' hready fun hd => hfp ?_).post fun _ _ _ hends => ?_
    · cases alternate <;> simp [Stmt.declares, hd]
    · refine hends.subset ?_
      cases alternate <;> exact List.subset_append_left _ _
  · match alternate with
    | none => exact h.law.pure (h.law.primitive_ok w' _)
    | some statement =>
        have hstatement : D.Fits k w (statement.all D.checks) (sizeOf statement) :=
          ha.part h.law (by simp +contextual) (by simp +arith)
        refine (h.exec (hstatement.mono h.law hw) hs' ready'.right fun hd => hfp ?_).post
          fun _ _ _ hends => ?_
        · simp [Stmt.declares, hd]
        · exact hends.subset (List.subset_append_right _ _)

/-- What passes the checks and is a loop is allowed to be exhausted. -/
theorem mayExhaust_of_loop {stmt : Stmt} (hst : stmt.all D.checks = true)
    (loop : stmt.isLoop = true) : D.mayExhaust := by
  rcases h.law.loops with may | none
  · exact may
  · rw [none stmt (Stmt.stmt_of_all hst)] at loop
    cases loop

/-- A jump is supported if it has no label. -/
theorem jump {label : Option String} {js : List Jump} {c : Completion} (what : String)
    (hc : D.ends js w c) (supported : D.checks.Refines .supported → label.isNone = true) :
    D.Keeps fp w (if label.isSome then Eval.unsupported what else return c)
      (if label.isSome then Eval.unsupported what else return c) (D.ends js) := by
  refine .ite (fun labelled => h.law.unsupported fun refines => ?_) fun _ => h.law.pure hc
  rw [Option.isNone_iff_eq_none.mp (supported refines)] at labelled
  cases labelled

theorem execute {stmt : Stmt} (hst : D.Fits (k + 1) w (stmt.all D.checks) (sizeOf stmt))
    (hs : D.scope w s) (ready : D.ready w s stmt.hoisted)
    (hfp : stmt.declares = true → fp.scope = some s) :
    D.Keeps fp w (r.execute s stmt) (r'.execute s stmt) (D.ends stmt.jumps) := by
  have law := h.law
  have supported (refines : D.checks.Refines .supported) : stmt.isSupported = true :=
    refines.stmt stmt (Stmt.stmt_of_all hst.passes)
  have undefined (w' : D.World) : D.value w' .undefined := law.primitive_ok w' _
  cases stmt with
  | declaration kind ds =>
      have hds : D.Fits k w (allDeclarators D.checks ds) (sizeOf ds) :=
        hst.sub law (by simp +contextual) (by simp +arith)
      refine law.bind (h.declarators kind hds hs (hfp rfl) supported) fun _ w' _ _ => ?_
      exact law.pure (undefined w')
  | function code =>
      have hcode : D.Fits k w (code.all D.checks) (sizeOf code) :=
        hst.sub law (by simp +contextual) (by simp +arith)
      refine law.bind (h.functionDeclaration hcode hs (hfp rfl) supported) fun _ w' _ _ => ?_
      exact law.pure (undefined w')
  | expression e =>
      have he : D.Fits k w (e.all D.checks) (sizeOf e) :=
        hst.sub law (by simp +contextual) (by simp +arith)
      exact law.bind (h.eval he hs) fun _ _ _ hv => law.pure hv
  | block body =>
      exact h.block (hst.sub law (by simp +contextual) (by simp +arith)) hs ready
  | empty => exact law.pure (undefined w)
  | conditional test consequent alternate =>
      have htest : D.Fits k w (test.all D.checks) (sizeOf test) :=
        hst.sub law (by simp +contextual) (by simp +arith)
      have hconsequent : D.Fits k w (consequent.all D.checks) (sizeOf consequent) :=
        hst.sub law (by simp +contextual) (by simp +arith)
      have halternate : D.Fits k w (allAlternate D.checks alternate) (sizeOf alternate) :=
        hst.sub law (by simp +contextual) (by simp +arith)
      exact h.conditional htest hconsequent halternate hs ready hfp
  | forLoop init test update body =>
      have hinit : D.Fits k w (allInit D.checks init) (sizeOf init) :=
        hst.sub law (by simp +contextual) (by simp +arith)
      have htest : D.Fits k w (allOptional D.checks test) (sizeOf test) :=
        hst.sub law (by simp +contextual) (by simp +arith)
      have hupdate : D.Fits k w (allOptional D.checks update) (sizeOf update) :=
        hst.sub law (by simp +contextual) (by simp +arith)
      have hbody : D.Fits k w (body.all D.checks) (sizeOf body) :=
        hst.sub law (by simp +contextual) (by simp +arith)
      exact h.forLoop hinit htest hupdate hbody hs ready.right supported
        (h.mayExhaust_of_loop hst.passes rfl)
  | whileLoop test body =>
      have htest : D.Fits k w (test.all D.checks) (sizeOf test) :=
        hst.sub law (by simp +contextual) (by simp +arith)
      have hbody : D.Fits k w (body.all D.checks) (sizeOf body) :=
        hst.sub law (by simp +contextual) (by simp +arith)
      refine h.iterate h.turns h.turns_inStep (h.mayExhaust_of_loop hst.passes rfl) ?_
      exact fun w' hw => h.whileTurn (htest.mono law hw) (hbody.mono law hw)
        (law.scope_mono hw hs) (law.ready_mono hw ready) hfp
  | doWhile body test =>
      have hbody : D.Fits k w (body.all D.checks) (sizeOf body) :=
        hst.sub law (by simp +contextual) (by simp +arith)
      have htest : D.Fits k w (test.all D.checks) (sizeOf test) :=
        hst.sub law (by simp +contextual) (by simp +arith)
      refine h.iterate h.turns h.turns_inStep (h.mayExhaust_of_loop hst.passes rfl) ?_
      exact fun w' hw => h.doWhileTurn (hbody.mono law hw) (htest.mono law hw)
        (law.scope_mono hw hs) (law.ready_mono hw ready) hfp
  | switch discriminant cases =>
      have hdiscriminant : D.Fits k w (discriminant.all D.checks) (sizeOf discriminant) :=
        hst.sub law (by simp +contextual) (by simp +arith)
      have hcases : D.Fits k w (allCases D.checks cases) (sizeOf cases) :=
        hst.sub law (by simp +contextual) (by simp +arith)
      exact h.switch hdiscriminant hcases hs ready
  | tryCatch block handler finalizer =>
      have hblock : D.Fits k w (allStmts D.checks block) (sizeOf block) :=
        hst.sub law (by simp +contextual) (by simp +arith)
      have hhandler : D.Fits k w (allHandler D.checks handler) (sizeOf handler) :=
        hst.sub law (by simp +contextual) (by simp +arith)
      have hfinalizer : D.Fits k w (allFinalizer D.checks finalizer) (sizeOf finalizer) :=
        hst.sub law (by simp +contextual) (by simp +arith)
      obtain ⟨hready, readyHandler, readyFinalizer⟩ := ready.tryCatch
      exact h.tryCatch hblock hhandler hfinalizer hs hready readyHandler readyFinalizer supported
  | ret value =>
      cases value with
      | none => exact law.pure ⟨undefined w, List.mem_singleton_self _⟩
      | some e =>
          have he : D.Fits k w (e.all D.checks) (sizeOf e) :=
            hst.sub law (by simp +contextual) (by simp +arith)
          refine law.bind (h.eval he hs) fun _ _ _ hv => ?_
          exact law.pure ⟨hv, List.mem_singleton_self _⟩
  | brk label => exact h.jump "labeled break" (List.mem_singleton_self _) supported
  | cont label => exact h.jump "labeled continue" (List.mem_singleton_self _) supported
  | throw e =>
      have he : D.Fits k w (e.all D.checks) (sizeOf e) :=
        hst.sub law (by simp +contextual) (by simp +arith)
      exact law.bind (h.eval he hs) fun _ _ _ hv => law.throwValue hv
  | unsupported => exact law.unsupported fun refines => nomatch supported refines

end Matches

end Discipline

end ScriptTree
