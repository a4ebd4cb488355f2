import ScriptTree.Proofs.Runs

/-!
# What evaluation does to scopes

A scope that exists keeps its names, their flags and the values of its constants, whatever
expression runs and however often it calls functions.  A statement can bind names in the scope it
runs in, if it declares some there; it takes none away, and it binds none in any other scope that
existed.
-/

namespace ScriptTree

/-! ## Comparing scopes -/

namespace Scope

/-- No name is gone. -/
def KeepsNames (old new : Scope) : Prop :=
  ∀ name, old.bindings.contains name = true → new.bindings.contains name = true

/-- The same names with the same flags, and the same values of the constants. -/
structure SameNames (old new : Scope) : Prop where
  flags : ∀ name, (new.bindings.get? name).map Binding.isMutable =
    (old.bindings.get? name).map Binding.isMutable
  constants : ∀ name b, old.bindings.get? name = some b → b.isMutable = false →
    new.bindings.get? name = some b

variable {a b c : Scope}

theorem SameNames.refl (a : Scope) : a.SameNames a := ⟨fun _ => rfl, fun _ _ h _ => h⟩

theorem SameNames.trans (h : a.SameNames b) (h' : b.SameNames c) : a.SameNames c :=
  ⟨fun name => (h'.flags name).trans (h.flags name),
    fun name v hv hm => h'.constants name v (h.constants name v hv hm) hm⟩

theorem SameNames.keepsNames (h : a.SameNames b) : a.KeepsNames b := by
  intro name ha
  have flags := congrArg Option.isSome (h.flags name)
  rw [Option.isSome_map, Option.isSome_map] at flags
  exact flags.trans ha

theorem KeepsNames.trans (h : a.KeepsNames b) (h' : b.KeepsNames c) : a.KeepsNames c :=
  fun name ha => h' name (h name ha)

/-- Binding a name takes none away. -/
theorem keepsNames_insert (a : Scope) (name : String) (b : Binding) :
    a.KeepsNames { a with bindings := a.bindings.insert name b } := by
  intro other h
  rw [Table.contains, Table.get?_insert]
  split
  · rfl
  · exact h

/-- Writing a variable changes its value only. -/
theorem sameNames_insert {name : String} {old : Binding} (v : Value)
    (ha : a.bindings.get? name = some old) (hm : old.isMutable = true) :
    a.SameNames { a with bindings := a.bindings.insert name ⟨v, true⟩ } := by
  constructor
  · intro other
    rw [Table.get?_insert]
    split
    next h =>
      subst h
      rw [ha]
      exact congrArg some hm.symm
    next => rfl
  · intro other b hb hconstant
    rw [Table.get?_insert, if_neg]
    · exact hb
    · intro h
      subst h
      cases ha.symm.trans hb
      cases hm.symm.trans hconstant

end Scope

/-! ## The discipline -/

namespace Discipline

/-- The scopes of a machine keep their names, and all but the one of the footprint keep the rest. -/
structure ScopesKept (fp : Footprint) (m m' : Machine) : Prop where
  size : m.scopes.size ≤ m'.scopes.size
  names : ∀ s : ScopeId, s.index < m.scopes.size → (m.scope s).KeepsNames (m'.scope s)
  same : ∀ s : ScopeId, s.index < m.scopes.size → fp.scope ≠ some s →
    (m.scope s).SameNames (m'.scope s)

namespace ScopesKept

variable {fp : Footprint} {m m' m'' : Machine}

/-- Nothing happened to the scopes. -/
theorem of_scopes (h : m'.scopes = m.scopes) : ScopesKept fp m m' := by
  have same (s : ScopeId) : m'.scope s = m.scope s := by rw [Machine.scope, Machine.scope, h]
  refine ⟨Nat.le_of_eq (congrArg Array.size h.symm), fun s _ => ?_, fun s _ _ => ?_⟩
  · rw [same]
    exact fun _ h => h
  · rw [same]
    exact .refl _

theorem trans (h : ScopesKept fp m m') (h' : ScopesKept fp m' m'') : ScopesKept fp m m'' where
  size := Nat.le_trans h.size h'.size
  names s hs := (h.names s hs).trans (h'.names s (Nat.lt_of_lt_of_le hs h.size))
  same s hs hfp := (h.same s hs hfp).trans (h'.same s (Nat.lt_of_lt_of_le hs h.size) hfp)

theorem push (m : Machine) (scope : Scope) :
    ScopesKept fp m { m with scopes := m.scopes.push scope } := by
  have same (s : ScopeId) (hs : s.index < m.scopes.size) :
      Machine.scope { m with scopes := m.scopes.push scope } s = m.scope s := by
    rw [Machine.scope_push, if_neg (Nat.ne_of_lt hs)]
  refine ⟨by simp, fun s hs => ?_, fun s hs _ => ?_⟩
  · rw [same s hs]
    exact fun _ h => h
  · rw [same s hs]
    exact .refl _

/-- One scope changes. -/
theorem modify (m : Machine) (s : ScopeId) (f : Scope → Scope)
    (names : (m.scope s).KeepsNames (f (m.scope s)))
    (same : fp.scope ≠ some s → (m.scope s).SameNames (f (m.scope s))) :
    ScopesKept fp m (m.modifyScope s f) := by
  refine ⟨by simp [Machine.modifyScope], fun i _ => ?_, fun i _ hfp => ?_⟩
  · rw [Machine.scope_modify]
    split
    next h =>
      rw [h.1]
      exact names
    next => exact fun _ h => h
  · rw [Machine.scope_modify]
    split
    next h =>
      obtain ⟨rfl, _⟩ := h
      exact same hfp
    next => exact .refl _

end ScopesKept

/-- Scopes keep their names, flags and constants. -/
def scopes : Discipline where
  World := Machine
  machine := id
  console m := m.console
  reaches := ScopesKept
  value _ _ := True
  slot _ _ := True
  scope _ _ := True
  target _ _ := True
  builtin _ := True
  fault _ _ := True
  checks := .anything
  fits _ := True
  room _ _ _ := True
  mayEnter _ := True
  mayExhaust := True
  inStep _ := True

/-- A change that leaves the scopes alone. -/
theorem scopes_follows {fp : Footprint} (m : Machine) (change : Machine → Machine)
    (kept : ScopesKept fp m (change m)) (console : (change m).console = m.console) :
    scopes.Follows fp m (change m) change :=
  ⟨kept, rfl, console⟩

theorem scopes_carefree : scopes.Carefree where
  value _ _ := trivial
  scope _ _ := trivial
  builtin _ := trivial
  fault _ _ := trivial
  fits _ := trivial
  room _ _ _ := trivial
  sees _ _ _ := trivial
  mayExhaust := trivial
  slot _ _ := trivial
  checks := rfl

theorem scopes_changes : scopes.Changes where
  refl _ _ := .of_scopes rfl
  trans := .trans
  widenScope h := by
    refine ⟨h.size, h.names, fun s hs _ => h.same s hs ?_⟩
    intro he
    cases he
  widenTarget h := ⟨h.size, h.names, h.same⟩
  dropScope {s _ _ _} hs h := by
    refine ⟨h.size, h.names, fun i hi _ => h.same i hi fun he => ?_⟩
    cases he
    exact absurd hi (Nat.not_lt.mpr hs)
  dropTarget _ h := ⟨h.size, h.names, h.same⟩
  target_mono _ _ := trivial
  allocates {m o} _ := ⟨_, scopes_follows m (fun m => { m with objects := m.objects.push o })
    (.of_scopes rfl) rfl, fun _ _ => trivial, fun _ => trivial⟩
  defines {m _ _} _ _ := ⟨_, scopes_follows m _ (.of_scopes rfl) rfl⟩
  erases {m _} _ := ⟨_, scopes_follows m _ (.of_scopes rfl) rfl⟩
  boxes {m _ _} _ _ := ⟨_, scopes_follows m _ (.of_scopes rfl) rfl⟩
  opensScope {m _ _} := ⟨_, scopes_follows m _ (.push m _) rfl⟩
  declares {m s v} name isMutable := by
    refine ⟨_, scopes_follows m _ (.modify m s _ ?_ ?_) rfl⟩
    · exact Scope.keepsNames_insert _ name ⟨v, isMutable⟩
    · exact fun h => absurd rfl h
  assigns {m s v name b} hb hm := by
    have same := Scope.sameNames_insert v hb hm
    exact ⟨_, scopes_follows m _ (.modify m s _ same.keepsNames fun _ => same) rfl⟩
  setsClock m _ := ⟨_, scopes_follows m _ (.of_scopes rfl) rfl⟩
  enters {m} frame _ := by
    refine ⟨{ m with stack := frame :: m.stack }, rfl, rfl, fun _ _ => trivial, ?_⟩
    intro fp m₂ h
    have kept : ScopesKept fp m { m₂ with stack := m₂.stack.tail } := ⟨h.size, h.names, h.same⟩
    exact ⟨_, kept, rfl, rfl, fun _ => trivial⟩

theorem scopes_lawful : scopes.Lawful := scopes_carefree.lawful scopes_changes

theorem scopes_agree (settings : Settings) : scopes.Agree settings settings :=
  scopes_lawful.agree settings (fun _ _ _ => trivial) (fun _ _ => trivial) fun m line =>
    ⟨{ m with console := m.console.push line }, .of_scopes rfl, rfl, rfl⟩

end Discipline

/-! ## Runs -/

/-- What a task may do to the scopes it finds. -/
theorem run_scopesKept (settings : Settings) (fuel : Nat) {α : Type} (task : Task α) (m : Machine) :
    Discipline.ScopesKept task.footprint m (run settings fuel task m).machine := by
  have runs := Discipline.scopes_lawful.runner (Discipline.scopes_agree settings)
    (Nat.le_refl fuel) fun _ => rfl
  have admitted : Discipline.scopes.Admits fuel m task := by
    cases task with
    | eval e s => exact ⟨⟨e.all_anything, trivial⟩, trivial⟩
    | exec stmt s => exact ⟨⟨stmt.all_anything, trivial⟩, trivial, fun _ _ => trivial⟩
    | call callee receiver arguments target =>
        exact ⟨trivial, trivial, fun _ _ => trivial, fun _ _ => trivial, trivial⟩
  obtain ⟨m', kept, ends⟩ := (runs.run task m admitted).outcome
  exact ends ▸ kept

/-- Expressions leave the names, flags and constants of every scope alone.  So do statements, but
for the scope they run in, where they take no name away; and those that declare nothing, such as a
block or a loop over one, leave it alone too. -/
theorem scopes_framed (settings : Settings) (fuel : Nat) (s : ScopeId) (m : Machine) :
    (∀ e, ∀ old : ScopeId, old.index < m.scopes.size →
      (m.scope old).SameNames (((settings.runner fuel).eval s e m).machine.scope old)) ∧
    ∀ stmt, ∀ old : ScopeId, old.index < m.scopes.size →
      (old ≠ s ∨ stmt.declares = false →
        (m.scope old).SameNames (((settings.runner fuel).exec s stmt m).machine.scope old)) ∧
      (m.scope old).KeepsNames (((settings.runner fuel).exec s stmt m).machine.scope old) := by
  refine ⟨fun e old hold => ?_, fun stmt old hold => ⟨fun apart => ?_, ?_⟩⟩
  · exact (run_scopesKept settings fuel (.eval e s) m).same old hold fun h => nomatch h
  · refine (run_scopesKept settings fuel (.exec stmt s) m).same old hold fun h => ?_
    -- the footprint of the statement would be `old`, but then it is `s` and something is declared
    rw [Task.footprint] at h
    split at h
    next declares =>
      cases h
      rcases apart with ne | none
      · exact ne rfl
      · cases declares.symm.trans none
    next => cases h
  · exact (run_scopesKept settings fuel (.exec stmt s) m).names old hold

/-- A scope with a variable `x` and a constant `k`. -/
def shadowedMachine : Machine :=
  { Machine.empty with
    scopes := #[⟨none, .undefined, .ofList [("x", ⟨.null, true⟩), ("k", ⟨.null, false⟩)]⟩] }

/-- `do { let k = this; x = k; } while (x);` -/
def shadowingLoop : Stmt :=
  .doWhile (.block [.declaration .lexical [⟨.ident "k", some .this⟩],
    .expression (.assign .assign (.ident "x") (.ident "k"))]) (.ident "x")

theorem scopes_framed_shadowing :
    shadowingLoop.declares = false ∧ 0 < shadowedMachine.scopes.size ∧
      ∃ c m', (Settings.standard.runner 5).exec ⟨0⟩ shadowingLoop shadowedMachine = .value c m' ∧
        m'.scopes.size = 2 ∧ (shadowedMachine.scope ⟨0⟩).SameNames (m'.scope ⟨0⟩) := by
  have one : 0 < shadowedMachine.scopes.size := by decide
  have framed := (scopes_framed .standard 5 ⟨0⟩ shadowedMachine).2 shadowingLoop ⟨0⟩ one
  exact ⟨rfl, one, _, _, rfl, rfl, framed.1 (.inr rfl)⟩

end ScriptTree
