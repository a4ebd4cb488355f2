import ScriptTree.Proofs.Links

/-!
# Hoisting covers execution

A `var` with an initial value and a function declaration write the name that was hoisted for them.
Both have a second branch, which binds the name where they stand when nothing around binds it.  That
branch is never taken: hoisting visits all statements that execution can come to.

So we let a second interpreter do anything at all in that branch, and no evaluation can tell it from
the interpreter.  The names are also found near enough: code of a program or of a call runs in
scopes inside the one that its names were hoisted to, its *home*, and the second interpreter may
look no farther out than that.
-/

namespace ScriptTree

/-! ## Names around a scope -/

namespace Machine

variable {m m' : Machine} {home s : ScopeId} {name : String}

/-- A name is bound in a scope or in one around it, no farther out than `home`.  On the way out
scopes get older. -/
inductive BoundUpTo (m : Machine) (home : ScopeId) (name : String) : ScopeId → Prop where
  | here {s : ScopeId} (bound : (m.scope s).bindings.contains name = true) : BoundUpTo m home name s
  | outer {s parent : ScopeId} (inside : s ≠ home) (link : (m.scope s).parent = some parent)
      (older : parent.index < s.index) (around : BoundUpTo m home name parent) :
      BoundUpTo m home name s

/-- Whether a name is bound within `bound` scopes, no farther out than `home`. -/
def isBoundWithin (m : Machine) (home : ScopeId) (name : String) : Nat → ScopeId → Bool
  | 0, _ => false
  | bound + 1, s =>
      (m.scope s).bindings.contains name ||
        match (m.scope s).parent with
        | some parent => s ≠ home && isBoundWithin m home name bound parent
        | none => false

namespace BoundUpTo

theorem exists_scope (h : m.BoundUpTo home name s) : s.index < m.scopes.size := by
  by_contra past
  have nothing := m.scope_default (Nat.le_of_not_lt past)
  cases h with
  | here bound =>
      rw [nothing] at bound
      cases bound
  | outer _ link _ _ =>
      rw [nothing] at link
      cases link

/-- Names stay bound while scopes grow. -/
theorem mono (h : m.BoundUpTo home name s) (grows : m.ScopesGrow m') :
    m'.BoundUpTo home name s := by
  induction h with
  | @here s bound =>
      have there := exists_scope (BoundUpTo.here bound : m.BoundUpTo home name s)
      exact .here (grows.names s there name bound)
  | @outer s parent inside link older around ih =>
      have there := exists_scope (.outer inside link older around)
      exact .outer inside ((grows.parent s there).trans link) older ih

/-- A name that is seen from a scope is seen from one that opens inside it. -/
theorem opened (h : m.BoundUpTo home name s) (there : home.index < m.scopes.size) (v : Value) :
    BoundUpTo { m with scopes := m.scopes.push ⟨some s, v, .empty⟩ } home name
      ⟨m.scopes.size⟩ := by
  -- the new scope is younger than its parent, and is not the home
  refine .outer ?_ ?_ h.exists_scope (h.mono (.push m _))
  · rintro rfl
    exact Nat.lt_irrefl _ there
  · rw [scope_push, if_pos rfl]

theorem declared (hs : s.index < m.scopes.size) (b : Binding) :
    (m.modifyScope s fun scope =>
      { scope with bindings := scope.bindings.insert name b }).BoundUpTo home name s := by
  refine .here ?_
  rw [scope_modify, if_pos ⟨rfl, hs⟩, Table.contains, Table.get?_insert, if_pos rfl]
  rfl

/-- The walk for the nearest binding finds one. -/
theorem nearestWithin_found (h : m.BoundUpTo home name s) {bound : Nat} (hb : s.index < bound) :
    ∃ found, m.nearestWithin name bound s = .found found := by
  induction h generalizing bound with
  | @here s here =>
      obtain ⟨bound, rfl⟩ : ∃ n, bound = n + 1 := ⟨bound - 1, by omega⟩
      obtain ⟨b, hb⟩ := Option.isSome_iff_exists.mp here
      rw [nearestWithin, hb]
      exact ⟨_, rfl⟩
  | @outer s parent inside link older around ih =>
      obtain ⟨bound, rfl⟩ : ∃ n, bound = n + 1 := ⟨bound - 1, by omega⟩
      rw [nearestWithin, link]
      split
      · exact ⟨_, rfl⟩
      · exact ih (by omega)

/-- So does the walk that stops at the home. -/
theorem isBoundWithin (h : m.BoundUpTo home name s) {bound : Nat} (hb : s.index < bound) :
    m.isBoundWithin home name bound s = true := by
  induction h generalizing bound with
  | @here s here =>
      obtain ⟨bound, rfl⟩ : ∃ n, bound = n + 1 := ⟨bound - 1, by omega⟩
      rw [Machine.isBoundWithin, here, Bool.true_or]
  | @outer s parent inside link older around ih =>
      obtain ⟨bound, rfl⟩ : ∃ n, bound = n + 1 := ⟨bound - 1, by omega⟩
      have found : m.isBoundWithin home name bound parent = true := ih (by omega)
      simp [Machine.isBoundWithin, link, inside, found]

end BoundUpTo

end Machine

/-! ## An interpreter that does not bind what it does not find -/

/-- How far out a hoisted name is looked for. -/
inductive Reach where
  | anywhere
  | upToHome

/-- Whether a name is found from a scope of code with the given home. -/
def Eval.isFound (reach : Reach) (home s : ScopeId) (name : String) : Eval Bool :=
  match reach with
  | .anywhere => isBound s name
  | .upToHome => inspect fun m => m.isBoundWithin home name (m.scopes.size + 1) s

/-- A name that is bound up to the home is found, however far one looks. -/
theorem Machine.BoundUpTo.isFound {m : Machine} {home s : ScopeId} {name : String}
    (h : m.BoundUpTo home name s) (reach : Reach) :
    Eval.isFound reach home s name m = .value true m := by
  have short : s.index < m.scopes.size + 1 := Nat.lt_succ_of_lt h.exists_scope
  cases reach with
  | anywhere =>
      obtain ⟨found, hfound⟩ := h.nearestWithin_found short
      have near : Eval.nearest? s name m = .value (some found) m := by
        rw [Eval.nearest?, Eval.search, Machine.nearest, hfound]
      exact Eval.bind_of_value near
  | upToHome => exact congrArg (Outcome.value · m) (h.isBoundWithin short)

namespace Runner

section Checked

variable (r : Runner) (reach : Reach) (home : ScopeId)
  (missing : ScopeId → String → Value → Eval Unit)

/-- Gives a hoisted name a value by `write`.  A name that is not found is `missing`. -/
def checkedBind (s : ScopeId) (name : String) (value : Value)
    (write : ScopeId → String → Value → Eval Unit) : Eval Unit := do
  if ← Eval.isFound reach home s name then write s name value else missing s name value

/-- Executes one declarator. -/
def checkedDeclarator (s : ScopeId) (kind : DeclarationKind) (name : String)
    (init : Option Expr) : Eval Unit := do
  match kind, init with
  | .var, some e => checkedBind reach home missing s name (← r.evalNamed s name e) Eval.assignVar
  | _, _ => r.declarator s kind name init

/-- Executes the declarators of a declaration. -/
def checkedDeclarators (s : ScopeId) (kind : DeclarationKind) : List Declarator → Eval Unit
  | [] => pure ()
  | ⟨.ident name, init⟩ :: rest => do
      r.checkedDeclarator reach home missing s kind name init
      checkedDeclarators s kind rest
  | _ :: _ => Eval.unsupported "destructuring declaration"

/-- Executes a function declaration. -/
def checkedFunctionDeclaration (s : ScopeId) (code : FunctionCode) : Eval Unit := do
  match code.name with
  | none => Eval.internalFault "Function declaration without a name"
  | some name =>
      checkedBind reach home missing s name (← Eval.instantiate s code false none) Eval.assign

/-- Executes the head of a `for` loop. -/
def checkedForInit (s : ScopeId) : Option ForInit → Eval Unit
  | some (.declaration kind declarators) =>
      r.checkedDeclarators reach home missing s kind declarators
  | init => r.forInit s init

/-- A `for` loop. -/
def checkedForLoop (s : ScopeId) (init : Option ForInit) (test update : Option Expr)
    (body : Stmt) : Eval Completion := do
  let inner ← Eval.childScope s
  r.checkedForInit reach home missing inner init
  Eval.iterate (r.forTurn inner test update body) r.turns

/-- Executes a statement, its parts as further tasks. -/
def checkedExecute (s : ScopeId) : Stmt → Eval Completion
  | .declaration kind declarators => do
      r.checkedDeclarators reach home missing s kind declarators
      return .normal .undefined
  | .function code => do
      checkedFunctionDeclaration reach home missing s code
      return .normal .undefined
  | .forLoop init test update body => r.checkedForLoop reach home missing s init test update body
  | stmt => r.execute s stmt

end Checked

section CheckedCalls

variable (runners : ScopeId → Runner) (reach : Reach) (home : ScopeId)
  (missing : ScopeId → String → Value → Eval Unit)

/-- Runs a function once its call is allowed.  The home of a script function is the scope that its
call opens. -/
def checkedEnter (callable : Callable) (receiver : Value) (arguments : List Value)
    (target : Option ObjectId) : Eval Value :=
  match callable with
  | .closure c => do
      let s ← openCall c receiver arguments
      (runners s).bindParameters s c.code.params arguments
      (runners s).runBody s c.code.body
  | callable => (runners home).enter callable receiver arguments target

/-- Runs one task, everything below it as further tasks. -/
def checkedStep : {α : Type} → Task α → Eval α
  | _, .eval e s => (runners home).evaluate s e
  | _, .exec stmt s => (runners home).checkedExecute reach home missing s stmt
  | _, .call callee receiver arguments target => do
      let callable ← (runners home).allow callee target
      Eval.withFrame ⟨callable.name?, callable.position?⟩
        (checkedEnter runners home callable receiver arguments target)

end CheckedCalls

end Runner

/-- Runs a task of code with the given home. -/
def checkedRun (settings : Settings) (reach : Reach)
    (missing : ScopeId → String → Value → Eval Unit) :
    Nat → ScopeId → {α : Type} → Task α → Eval α
  | 0, _, _, _ => Eval.exhausted
  | fuel + 1, home, _, task =>
      Runner.checkedStep
        (fun home => ⟨settings, fuel, checkedRun settings reach missing fuel home⟩) reach home
        missing task

/-- The runner for code with the given home. -/
def Settings.checkedRunner (settings : Settings) (reach : Reach)
    (missing : ScopeId → String → Value → Eval Unit) (fuel : Nat) (home : ScopeId) : Runner :=
  ⟨settings, fuel, checkedRun settings reach missing fuel home⟩

/-! ## The discipline -/

/-- The scope of a script function is among the first `k`. -/
def Callable.Rooted (k : Nat) : Callable → Prop
  | .closure c => c.scope.index < k
  | .builtin _ | .host _ => True

/-- Every script function of the machine has a scope. -/
def Machine.Rooted (m : Machine) : Prop := m.Functions (·.Rooted m.scopes.size)

theorem Callable.Rooted.mono {k k' : Nat} {c : Callable} (h : c.Rooted k) (hk : k ≤ k') :
    c.Rooted k' := by
  cases c with
  | closure c => exact Nat.lt_of_lt_of_le h hk
  | builtin b => exact trivial
  | host f => exact trivial

/-- More scopes do no harm to functions. -/
theorem Machine.Rooted.mono {m m' : Machine} (h : m.Rooted) (objects : m'.objects = m.objects)
    (scopes : m.scopes.size ≤ m'.scopes.size) : m'.Rooted := by
  intro o c hc
  rw [Machine.object, objects] at hc
  exact (h o c hc).mono scopes

namespace Discipline

/-- Code finds its names no farther out than `home`. -/
def hoisted (home : ScopeId) : Discipline where
  World := { m : Machine // home.index < m.scopes.size ∧ m.Rooted }
  machine := Subtype.val
  console w := w.val.console
  reaches _ w w' := w.val.ScopesGrow w'.val
  value _ _ := True
  slot _ _ := True
  scope w s := s.index < w.val.scopes.size
  target _ _ := True
  builtin _ := True
  fault _ _ := True
  checks := .anything
  fits _ := True
  room _ _ _ := True
  mayEnter _ := True
  mayExhaust := True
  inStep _ := True
  sees w s name := w.val.BoundUpTo home name s

variable {home : ScopeId} {w : (hoisted home).World}

/-- A change under which scopes grow and functions keep theirs. -/
theorem hoisted_follows {fp : Footprint} (change : Machine → Machine)
    (grows : w.val.ScopesGrow (change w.val)) (rooted : (change w.val).Rooted)
    (console : (change w.val).console = w.val.console) :
    ∃ w', (hoisted home).Follows fp w w' change ∧ w'.val = change w.val :=
  ⟨⟨change w.val, Nat.lt_of_lt_of_le w.property.1 grows.size, rooted⟩, ⟨grows, rfl, console⟩, rfl⟩

/-- A change of an object that makes it no function. -/
theorem hoisted_modifies {fp : Footprint} (o : ObjectId) (f : Object → Object)
    (kind : ∀ x c, (f x).kind = .function c → x.kind = .function c) :
    ∃ w', (hoisted home).Follows fp w w' (·.modifyObject o f) := by
  obtain ⟨w', follows, _⟩ := hoisted_follows (·.modifyObject o f) (.of_scopes rfl)
    (w.property.2.modify o f kind) rfl
  exact ⟨w', follows⟩

theorem hoisted_binds {fp : Footprint} (s : ScopeId) (name : String) (b : Binding) :
    ∃ w', (hoisted home).Follows fp w w' (·.modifyScope s fun scope =>
      { scope with bindings := scope.bindings.insert name b }) := by
  have grows := Machine.ScopesGrow.bind w.val s name b
  obtain ⟨w', follows, _⟩ := hoisted_follows (·.modifyScope s fun scope =>
      { scope with bindings := scope.bindings.insert name b }) grows
    (w.property.2.mono rfl grows.size) rfl
  exact ⟨w', follows⟩

theorem hoisted_lawful : (hoisted home).Lawful where
  refl _ _ := .of_scopes rfl
  trans := .trans
  widenScope h := h
  widenTarget h := h
  dropScope _ h := h
  dropTarget _ h := h
  scope_mono h hs := Nat.lt_of_lt_of_le hs h.size
  sees_mono h hn := hn.mono h
  entries_ok _ _ := property_of_values (fun _ => trivial) (fun _ => trivial) _
  callable_ok {w v c} hc := by
    have rooted := w.property.2.of_callable? hc
    cases c with
    | closure c => exact ⟨⟨c.code.all_anything, trivial⟩, rooted⟩
    | builtin b => exact trivial
    | host f => exact trivial
  allocates {w o} ho := by
    have rooted (c : Callable) (hc : o.kind = .function c) : c.Rooted w.val.scopes.size := by
      have hk := ho.kind
      rw [hc] at hk
      cases c with
      | closure c => exact hk.2.2
      | builtin b => exact trivial
      | host f => exact trivial
    obtain ⟨w', follows, _⟩ := hoisted_follows (fun m => { m with objects := m.objects.push o })
      (.of_scopes rfl) (w.property.2.push rooted) rfl
    exact ⟨w', follows, trivial, fun _ _ => trivial, fun _ => trivial⟩
  defines {w o p} key _ _ := hoisted_modifies o (·.define key p) fun _ _ h => h
  erases {w o} key _ := hoisted_modifies o (·.erase key) fun _ _ h => h
  boxes {w o p} _ _ := hoisted_modifies o ({ · with kind := .boxed p }) fun _ _ h => nomatch h
  opensScope {w v parent} _ _ := by
    have grows := Machine.ScopesGrow.push w.val ⟨some parent, v, .empty⟩
    obtain ⟨w', follows, same⟩ := hoisted_follows
      (fun m => { m with scopes := m.scopes.push ⟨some parent, v, .empty⟩ }) grows
      (w.property.2.mono rfl grows.size) rfl
    have last : w.val.scopes.size < w'.val.scopes.size := by simp [same]
    exact ⟨w', follows, last⟩
  declares {w s v} name isMutable _ _ := hoisted_binds s name ⟨v, isMutable⟩
  assigns {w s v name b} _ _ _ := hoisted_binds s name ⟨v, true⟩
  setsClock w clock := by
    obtain ⟨w', follows, _⟩ := hoisted_follows (fun m => { m with clock := clock })
      (.of_scopes rfl) w.property.2 rfl
    exact ⟨w', follows⟩
  sees_here h := .here h
  sees_opened {fp w w' v parent name} hn follows := by
    obtain ⟨m', _⟩ := w'
    cases follows.machine
    exact hn.opened w.property.1 v
  sees_declared {fp w w' s name b} hs follows := by
    obtain ⟨m', _⟩ := w'
    cases follows.machine
    exact .declared hs b
  enters {k w} frame _ _ := by
    refine ⟨⟨{ w.val with stack := frame :: w.val.stack }, w.property⟩, ?_, fun fp w₂ hr => ?_⟩
    · exact { machine := rfl, console := rfl, scope := fun _ h => h }
    · have grows : w.val.ScopesGrow { w₂.val with stack := w₂.val.stack.tail } :=
        ⟨hr.size, hr.parent, hr.receiver, hr.names⟩
      exact ⟨⟨{ w₂.val with stack := w₂.val.stack.tail }, w₂.property⟩,
        { reaches := grows, machine := rfl, console := rfl }⟩

theorem hoisted_agree (settings : Settings) : (hoisted home).Agree settings settings :=
  hoisted_lawful.agree settings (fun _ _ _ => trivial) (fun _ _ => trivial) fun w line =>
    ⟨⟨{ w.val with console := w.val.console.push line }, w.property⟩, .of_scopes rfl, rfl, rfl⟩

/-! ## The two interpreters -/

/-- Only the machine of a world counts, whatever the home. -/
theorem Keeps.rehome {inner : ScopeId} {fp : Footprint} (w₁ : (hoisted inner).World) {α : Type}
    {x y : Eval α} (same : w₁.val = w.val)
    (hx : (hoisted inner).Keeps fp w₁ x y fun _ _ => True) :
    (hoisted home).Keeps fp w x y fun _ _ => True := by
  obtain ⟨m, there, _⟩ := w
  obtain ⟨m₁, _⟩ := w₁
  cases same
  cases hx with
  | value w' a hr left right _ =>
      exact .value ⟨w'.val, Nat.lt_of_lt_of_le there hr.size, w'.property.2⟩ a hr left right trivial
  | fault w' f hr left right _ =>
      exact .fault ⟨w'.val, Nat.lt_of_lt_of_le there hr.size, w'.property.2⟩ f hr left right trivial
  | exhausted w' hr left _ right =>
      exact .exhausted ⟨w'.val, Nat.lt_of_lt_of_le there hr.size, w'.property.2⟩ hr left trivial
        right

namespace Matches

variable {k : Nat} {r r' : Runner} (h : (hoisted home).Matches k r r') {fp : Footprint}
  {s : ScopeId} (reach : Reach) (missing : ScopeId → String → Value → Eval Unit)
include h

/-- A name that is seen is written by both. -/
theorem checkedBind {v : Value} {name : String} (strict : Bool)
    (seen : (hoisted home).sees w s name) :
    (hoisted home).Keeps fp w (Runner.bindHoisted s name v (Eval.writeBinding strict))
      (Runner.checkedBind reach home missing s name v (Eval.writeBinding strict))
      fun _ _ => True := by
  have left : Eval.isBound s name w.val = .value true w.val := seen.isFound .anywhere
  have right : Eval.isFound reach home s name w.val = .value true w.val := seen.isFound reach
  refine (h.law.writeBinding (v := v) strict s name trivial).congr ?_ ?_
  · exact Eval.bind_of_value left
  · exact Eval.bind_of_value right

theorem checkedDeclarator {init : Option Expr} {kind : DeclarationKind} {name : String}
    (hs : (hoisted home).scope w s) (hfp : fp.scope = some s)
    (seen : kind = .var → (hoisted home).sees w s name) :
    (hoisted home).Keeps fp w (r.declarator s kind name init)
      (r'.checkedDeclarator reach home missing s kind name init) fun _ _ => True := by
  have others : (hoisted home).Keeps fp w (r.declarator s kind name init)
      (r'.declarator s kind name init) fun _ _ => True :=
    h.declarator kind name ⟨allOptional_anything init, trivial⟩ hs hfp
  cases init with
  | none => cases kind <;> exact others
  | some e =>
      cases kind with
      | var =>
          refine h.law.bind (h.evalNamed name ⟨e.all_anything, trivial⟩ hs) fun v w' hw _ => ?_
          exact h.checkedBind reach missing false (h.law.sees_mono hw (seen rfl))
      | lexical => exact others
      | constant => exact others

theorem checkedDeclarators {ds : List Declarator} {kind : DeclarationKind}
    (hs : (hoisted home).scope w s) (hfp : fp.scope = some s)
    (ready : (hoisted home).ready w s (hoistedDeclaration kind ds)) :
    (hoisted home).Keeps fp w (r.declarators s kind ds)
      (r'.checkedDeclarators reach home missing s kind ds) fun _ _ => True := by
  induction ds generalizing w with
  | nil => exact h.law.pure trivial
  | cons first rest ih =>
      obtain ⟨target, init⟩ := first
      cases target with
      | ident name =>
          have seen (hk : kind = .var) : (hoisted home).sees w s name := by
            subst hk
            exact ready name List.mem_cons_self
          refine h.law.bind (h.checkedDeclarator reach missing hs hfp seen) fun _ w' hw _ => ?_
          refine ih (h.law.scope_mono hw hs) (h.law.ready_mono hw (ready.subset ?_))
          cases kind with
          | var => exact List.subset_cons_self name _
          | lexical => exact List.Subset.refl _
          | constant => exact List.Subset.refl _
      | _ => exact h.law.unsupported anything_not_supported

theorem checkedFunctionDeclaration {code : FunctionCode} (hs : (hoisted home).scope w s)
    (ready : (hoisted home).ready w s code.name.toList) :
    (hoisted home).Keeps fp w (Runner.functionDeclaration s code)
      (Runner.checkedFunctionDeclaration reach home missing s code) fun _ _ => True := by
  unfold Runner.functionDeclaration Runner.checkedFunctionDeclaration
  cases hn : code.name with
  | none => exact h.law.internalFault_of anything_not_supported
  | some name =>
      rw [hn] at ready
      refine h.law.bind (h.law.instantiate false none hs ⟨code.all_anything, trivial⟩) ?_
      intro v w' hw _
      exact h.checkedBind reach missing true (h.law.sees_mono hw (ready name List.mem_cons_self))

theorem checkedForInit {init : Option ForInit} (hs : (hoisted home).scope w s)
    (hfp : fp.scope = some s) (ready : (hoisted home).ready w s (ForInit.hoisted init)) :
    (hoisted home).Keeps fp w (r.forInit s init) (r'.checkedForInit reach home missing s init)
      fun _ _ => True := by
  have others : (hoisted home).Keeps fp w (r.forInit s init) (r'.forInit s init) fun _ _ => True :=
    h.forInit ⟨allInit_anything init, trivial⟩ hs hfp
      fun refines => (anything_not_supported refines).elim
  match init with
  | none => exact others
  | some (.declaration kind ds) => exact h.checkedDeclarators reach missing hs hfp ready
  | some (.expression e) => exact others

theorem checkedForLoop {init : Option ForInit} {test update : Option Expr} {body : Stmt}
    (hs : (hoisted home).scope w s)
    (ready : (hoisted home).ready w s (ForInit.hoisted init ++ body.hoisted)) :
    (hoisted home).Keeps fp w (r.forLoop s init test update body)
      (r'.checkedForLoop reach home missing s init test update body)
      ((hoisted home).ends (body.jumps.filter (· = .ret))) := by
  refine h.law.inChild hs fun inner w₁ h₁ hs₁ seen => ?_
  refine h.law.bind (h.checkedForInit reach missing hs₁ rfl (seen _ ready.left)) fun _ w₂ h₂ _ => ?_
  refine h.iterate h.turns h.turns_inStep trivial fun w₃ h₃ => ?_
  have h₂₃ := h.law.trans h₂ h₃
  exact h.forTurn ⟨allOptional_anything test, trivial⟩ ⟨allOptional_anything update, trivial⟩
    ⟨body.all_anything, trivial⟩ (h.law.scope_mono h₂₃ hs₁)
    (h.law.ready_mono h₂₃ (seen _ ready.right)) fun _ => rfl

theorem checkedExecute {stmt : Stmt} (hs : (hoisted home).scope w s)
    (ready : (hoisted home).ready w s stmt.hoisted)
    (hfp : stmt.declares = true → fp.scope = some s) :
    (hoisted home).Keeps fp w (r.execute s stmt) (r'.checkedExecute reach home missing s stmt)
      ((hoisted home).ends stmt.jumps) := by
  have others := h.execute ⟨stmt.all_anything, trivial⟩ hs ready hfp
  cases stmt with
  | declaration kind ds =>
      exact h.law.bind (h.checkedDeclarators reach missing hs (hfp rfl) ready) fun _ _ _ _ =>
        h.law.pure trivial
  | function code =>
      exact h.law.bind (h.checkedFunctionDeclaration reach missing hs ready) fun _ _ _ _ =>
        h.law.pure trivial
  | forLoop init test update body => exact h.checkedForLoop reach missing hs ready
  | _ => exact others

end Matches

section Calls

variable {k : Nat} {r : Runner} {runners : ScopeId → Runner}
  (h : ∀ home, (hoisted home).Matches k r (runners home))
include h

/-- The body of a script function has the scope of its call for a home. -/
theorem checkedEnter {fp : Footprint} {callable : Callable} {receiver : Value}
    {arguments : List Value} {target : Option ObjectId}
    (hc : (hoisted home).callable w callable) (hfp : fp.target = target) :
    (hoisted home).Keeps fp w (r.enter callable receiver arguments target)
      (Runner.checkedEnter runners home callable receiver arguments target)
      (hoisted home).value := by
  have others : (hoisted home).Keeps fp w (r.enter callable receiver arguments target)
      ((runners home).enter callable receiver arguments target) (hoisted home).value :=
    (h home).enter hc trivial (fun _ _ => trivial) (fun _ _ => trivial) hfp trivial
      fun _ _ => trivial
  cases callable with
  | closure c =>
      have law : (hoisted home).Lawful := (h home).law
      refine law.forgetScope (s := ⟨w.val.scopes.size⟩) (Nat.le_refl _) ?_
      refine law.bind ((h home).openCall hc.2 trivial (fun _ _ => trivial) rfl) ?_
      rintro s w₁ h₁ ⟨place, hs⟩
      have below := h s
      refine Keeps.rehome (⟨w₁.val, hs, w₁.property.2⟩ : (hoisted s).World) rfl ?_
      refine below.law.bind (below.bindParameters ⟨allParams_anything _, trivial⟩ hs place
        (fun _ _ => trivial) fun refines => (anything_not_supported refines).elim) ?_
      intro _ w₂ h₂ _
      exact below.runBody ⟨FunctionBody.all_anything _, trivial⟩ (below.law.scope_mono h₂ hs) place
        fun refines => (anything_not_supported refines).elim
  | builtin b => exact others
  | host f => exact others

theorem checkedStep (agree : (hoisted home).Agree r.settings (runners home).settings)
    (reach : Reach) (missing : ScopeId → String → Value → Eval Unit) {α : Type} (task : Task α)
    (w : (hoisted home).World) (admitted : (hoisted home).Admits (k + 1) w task) :
    (hoisted home).Keeps task.footprint w (r.step task)
      (Runner.checkedStep runners reach home missing task) ((hoisted home).Answers task) := by
  cases task with
  | eval e s => exact (h home).evaluate admitted.1 admitted.2
  | exec stmt s =>
      obtain ⟨_, hs, ready⟩ := admitted
      exact (h home).checkedExecute reach missing hs ready fun hd => if_pos hd
  | call callee receiver arguments target =>
      have law : (hoisted home).Lawful := (h home).law
      refine law.bind ((h home).allow agree callee target) fun callable w₁ h₁ ⟨hc, _⟩ => ?_
      refine law.withFrame (k := k) trivial trivial fun w₂ enters => ?_
      exact checkedEnter h (enters.callable hc) rfl

end Calls

theorem checked_runner (settings : Settings) (reach : Reach)
    (missing : ScopeId → String → Value → Eval Unit) (fuel : Nat) (home : ScopeId) :
    (hoisted home).Matches fuel (settings.runner fuel)
      (settings.checkedRunner reach missing fuel home) := by
  have agree (home : ScopeId) : (hoisted home).Agree settings settings := hoisted_agree settings
  -- for all homes at once, since a call goes on with another
  induction fuel generalizing home with
  | zero =>
      refine ⟨hoisted_lawful, (agree home).toAgreeInside, ?_, Nat.le_refl 0, fun _ => rfl⟩
      exact fun task w _ => .exhausted w (hoisted_lawful.refl _ w) rfl trivial fun _ => rfl
  | succ fuel ih =>
      refine ⟨hoisted_lawful, (agree home).toAgreeInside, ?_, Nat.le_refl _, fun _ => rfl⟩
      exact checkedStep ih (agree home) reach missing

/-- Both end alike. -/
theorem Keeps.eq_checked {fp : Footprint} {α : Type} {x y : Eval α}
    {Q : (hoisted home).World → α → Prop} (hx : (hoisted home).Keeps fp w x y Q) :
    y w.val = x w.val :=
  hx.eq_companion (fun _ => rfl) fun _ _ => trivial

end Discipline

/-! ## Programs and calls -/

/-- A program, and a call of any function, runs as it does when a name that is not found is
`missing`, also if one looks no farther than the home: every `var` with an initial value and every
function declaration that is executed finds its name bound, at the latest in the scope that its body
was hoisted to. -/
theorem hoisted_names_found (settings : Settings) (fuel : Nat) (reach : Reach)
    (missing : ScopeId → String → Value → Eval Unit) {m : Machine} (rooted : m.Rooted)
    {s : ScopeId} (hs : s.index < m.scopes.size) :
    (∀ program, (settings.checkedRunner reach missing fuel s).evalProgram s program m =
      (settings.runner fuel).evalProgram s program m) ∧
    ∀ callee receiver arguments target,
      checkedRun settings reach missing fuel s (.call callee receiver arguments target) m =
        run settings fuel (.call callee receiver arguments target) m := by
  have runs := Discipline.checked_runner settings reach missing fuel s
  refine ⟨fun program => ?_, fun callee receiver arguments target => ?_⟩
  · have keeps := runs.evalProgram (w := ⟨m, hs, rooted⟩)
      ⟨allStmts_anything program.body, trivial⟩ hs
      fun refines => (Discipline.anything_not_supported refines).elim
    exact keeps.eq_checked
  · have keeps := runs.run (.call callee receiver arguments target) ⟨m, hs, rooted⟩
      ⟨trivial, trivial, fun _ _ => trivial, fun _ _ => trivial, trivial⟩
    exact keeps.eq_checked

/-- The text that an action ended with. -/
def Outcome.text? : Outcome Value → Option String
  | .value (.string s) _ => some s
  | _ => none

/-- A machine with one scope that binds nothing. -/
def bareMachine : Machine := { Machine.empty with scopes := #[⟨none, .undefined, .empty⟩] }

/-- `function f() { try { throw this; } catch (e) { var x = "caught"; } return x; }
for (var y = f(); y; y = null) switch (y) { default: var z = y; }  z;` -/
def nestedDeclarations : Program :=
  ⟨[.function ⟨some "f", [], .block
      [.tryCatch [.throw .this]
        (some ⟨some (.ident "e"), [.declaration .var [⟨.ident "x", some (.literal
          ⟨.string "caught", none, none⟩)⟩]]⟩) none,
        .ret (some (.ident "x"))], false, false, none⟩,
    .forLoop (some (.declaration .var [⟨.ident "y", some (.call (.ident "f") [])⟩]))
      (some (.ident "y"))
      (some (.assign .assign (.ident "y") (.literal ⟨.null, none, none⟩)))
      (.switch (.ident "y") [⟨none, [.declaration .var [⟨.ident "z", some (.ident "y")⟩]]⟩]),
    .expression (.ident "z")]⟩

theorem hoisted_names_found_nested :
    bareMachine.Rooted ∧ 0 < bareMachine.scopes.size ∧
      ((Settings.standard.checkedRunner .upToHome (fun _ _ _ => Eval.exhausted) 9 ⟨0⟩).evalProgram
        ⟨0⟩ nestedDeclarations bareMachine).text? = some "caught" := by
  have rooted : bareMachine.Rooted := by
    intro o c hc
    cases hc
  have one : 0 < bareMachine.scopes.size := by decide
  have found := hoisted_names_found .standard 9 .upToHome (fun _ _ _ => Eval.exhausted) rooted one
  refine ⟨rooted, one, ?_⟩
  rw [found.1 nestedDeclarations]
  decide +kernel

end ScriptTree
