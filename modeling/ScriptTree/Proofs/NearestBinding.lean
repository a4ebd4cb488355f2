import ScriptTree.Proofs.Discipline
import ScriptTree.Proofs.Walks

/-!
# The nearest binding of a name

*Chains.*  `Machine.ScopeChain` lists the scopes from one outwards, and `Machine.firstBinding` is
the first binding of a name on such a list.  The machine walks the chain for it (`Machine.nearest`).
To ask whether a name is bound, to read it and to write it all go on from where that one walk ends,
so all of them are about the same binding (`isBound_of_chain`, `lookup_of_chain`,
`writeBinding_of_chain`).

*Assignments.*  An assignment fails when there is no binding or a constant one, and then changes
nothing.  Otherwise it changes the value of that one binding and nothing else
(`Machine.Rebinds`), and the name reads as the new value (`assign_by_nearest`).
-/

namespace ScriptTree

/-! ## Chains -/

namespace Machine

/-- The scopes from one outwards. -/
abbrev ScopeChain (m : Machine) : ScopeId → List ScopeId → Prop :=
  Path fun s => (m.scope s).parent

/-- The first of some scopes that binds a name, and its binding. -/
def firstBinding (m : Machine) (scopes : List ScopeId) (name : String) :
    Option (ScopeId × Binding) :=
  scopes.findSome? fun s => ((m.scope s).bindings.get? name).map (s, ·)

variable {m : Machine} {s owner : ScopeId} {scopes : List ScopeId} {name : String} {b : Binding}

/-- The first binding on a list is one of the scope it comes with. -/
theorem get?_of_firstBinding (h : m.firstBinding scopes name = some (owner, b)) :
    (m.scope owner).bindings.get? name = some b := by
  obtain ⟨s, _, found⟩ := List.exists_of_findSome?_eq_some h
  obtain ⟨binding, there, same⟩ := Option.map_eq_some_iff.mp found
  cases same
  exact there

/-- A scope that binds a name is there. -/
theorem inside_of_get? (h : (m.scope owner).bindings.get? name = some b) :
    owner.index < m.scopes.size := by
  by_contra past
  rw [m.scope_default (Nat.le_of_not_lt past)] at h
  cases h

/-- The walk of a machine finds the first binding on the chain. -/
theorem nearest_of_chain (chain : m.ScopeChain s scopes) (name : String) :
    m.nearest s name = .ofOption (m.firstBinding scopes name) := by
  induction chain with
  | @last s none =>
      rw [m.nearest_eq, none, firstBinding, List.findSome?_singleton]
      cases (m.scope s).bindings.get? name <;> rfl
  | @link s parent rest link _ ih =>
      rw [m.nearest_eq, link, firstBinding, List.findSome?_cons]
      cases (m.scope s).bindings.get? name with
      | some binding => rfl
      | none => exact ih

end Machine

/-! ## Walkers -/

namespace Eval

variable {m : Machine} {s : ScopeId} {scopes : List ScopeId} (chain : m.ScopeChain s scopes)
  (name : String)
include chain

theorem nearest?_of_chain : nearest? s name m = .value (m.firstBinding scopes name) m := by
  rw [nearest?, search, Machine.nearest_of_chain chain]
  cases m.firstBinding scopes name <;> rfl

theorem isBound_of_chain : isBound s name m = .value (m.firstBinding scopes name).isSome m :=
  bind_of_value (nearest?_of_chain chain name)

theorem lookup_of_chain :
    lookup s name m =
      .value ((m.firstBinding scopes name).elim .undefined fun found => found.2.value) m := by
  rw [lookup, bind_of_value (nearest?_of_chain chain name)]
  cases m.firstBinding scopes name <;> rfl

/-- What a write does is decided by the first binding. -/
theorem writeBinding_of_chain (strict : Bool) (v : Value) :
    writeBinding strict s name v m =
      match m.firstBinding scopes name with
      | none => .fault (.undeclared name) m
      | some (owner, b) =>
          if b.isMutable then declare owner name v true m
          else if strict then .fault .constantAssigned m
          else .value () m := by
  rw [writeBinding, bind_of_value (nearest?_of_chain chain name)]
  cases m.firstBinding scopes name with
  | none => rfl
  | some found =>
      obtain ⟨owner, value, isMutable⟩ := found
      cases isMutable with
      | true => rfl
      | false => cases strict <;> rfl

end Eval

/-! ## One value -/

/-- Nothing has changed but the value of one binding, which keeps its place and its flag. -/
structure Machine.Rebinds (m : Machine) (owner : ScopeId) (name : String) (v : Value)
    (m' : Machine) : Prop where
  inPlace : ∃ before old after,
    (m.scope owner).bindings.entries = before ++ (name, old) :: after ∧
      name ∉ before.map Prod.fst ∧
      (m'.scope owner).bindings.entries = before ++ (name, { old with value := v }) :: after
  parent : (m'.scope owner).parent = (m.scope owner).parent
  receiver : (m'.scope owner).receiver = (m.scope owner).receiver
  others : ∀ s, s ≠ owner → m'.scope s = m.scope s
  size : m'.scopes.size = m.scopes.size
  objects : m'.objects = m.objects
  stack : m'.stack = m.stack
  console : m'.console = m.console
  clock : m'.clock = m.clock

namespace Machine

variable {m m' : Machine} {s owner : ScopeId} {scopes : List ScopeId} {name : String} {b : Binding}
  {v : Value}

/-- Writing a variable where it is bound changes its value only. -/
theorem rebinds_insert (there : (m.scope owner).bindings.get? name = some b)
    (isMutable : b.isMutable = true) (v : Value) :
    m.Rebinds owner name v (m.modifyScope owner fun scope =>
      { scope with bindings := scope.bindings.insert name ⟨v, true⟩ }) := by
  have changed : (m.modifyScope owner fun scope =>
      { scope with bindings := scope.bindings.insert name ⟨v, true⟩ }).scope owner =
        { m.scope owner with bindings := (m.scope owner).bindings.insert name ⟨v, true⟩ } := by
    rw [scope_modify, if_pos ⟨rfl, inside_of_get? there⟩]
  constructor
  · obtain ⟨before, after, entries, first⟩ := Table.get?_eq_some_iff.mp there
    refine ⟨before, b, after, entries, first, ?_⟩
    rw [changed, ← isMutable]
    show Table.insertEntry name _ (m.scope owner).bindings.entries = _
    rw [entries]
    exact Table.insertEntry_append_cons b _ first
  · rw [changed]
  · rw [changed]
  · intro s other
    rw [scope_modify, if_neg fun same => other same.1]
  · exact Array.size_modify ..
  all_goals rfl

namespace Rebinds

variable (h : m.Rebinds owner name v m')
include h

theorem get? (there : (m.scope owner).bindings.get? name = some b) :
    (m'.scope owner).bindings.get? name = some { b with value := v } := by
  obtain ⟨before, old, after, entries, first, entries'⟩ := h.inPlace
  have same : (m.scope owner).bindings.get? name = some old :=
    Table.get?_eq_some_iff.mpr ⟨before, after, entries, first⟩
  cases there.symm.trans same
  exact Table.get?_eq_some_iff.mpr ⟨before, after, entries', first⟩

/-- The scopes around a scope are the same ones. -/
theorem scopeChain (chain : m.ScopeChain s scopes) : m'.ScopeChain s scopes := by
  have parents : (fun s => (m'.scope s).parent) = fun s => (m.scope s).parent := by
    funext s
    by_cases same : s = owner
    · rw [same, h.parent]
    · rw [h.others s same]
  rw [ScopeChain, parents]
  exact chain

/-- The first binding is still the first, with its new value. -/
theorem firstBinding (first : m.firstBinding scopes name = some (owner, b)) :
    m'.firstBinding scopes name = some (owner, { b with value := v }) := by
  have there := get?_of_firstBinding first
  induction scopes with
  | nil => cases first
  | cons s rest ih =>
      rw [Machine.firstBinding, List.findSome?_cons] at first ⊢
      by_cases same : s = owner
      · rw [same, h.get? there]
        rfl
      · rw [h.others s same]
        cases found : (m.scope s).bindings.get? name with
        | some binding =>
            rw [found] at first
            cases first
            exact absurd rfl same
        | none =>
            rw [found] at first
            exact ih first

end Rebinds

end Machine

/-! ## Assignments -/

/-- An assignment to a variable gives its nearest binding a new value and nothing else, and the name
reads as that value. -/
theorem Eval.assign_of_variable {m : Machine} {s owner : ScopeId} {scopes : List ScopeId}
    (chain : m.ScopeChain s scopes) {name : String} {b : Binding}
    (first : m.firstBinding scopes name = some (owner, b)) (isMutable : b.isMutable = true)
    (v : Value) :
    ∃ m', assign s name v m = .value () m' ∧ m.Rebinds owner name v m' ∧
      m'.firstBinding scopes name = some (owner, { b with value := v }) ∧
      lookup s name m' = .value v m' := by
  have rebinds := Machine.rebinds_insert (Machine.get?_of_firstBinding first) isMutable v
  have first' := rebinds.firstBinding first
  have reads := lookup_of_chain (rebinds.scopeChain chain) name
  rw [first'] at reads
  refine ⟨_, ?_, rebinds, first', reads⟩
  rw [assign, writeBinding_of_chain chain name true v, first]
  exact if_pos isMutable

/-- All walks along the scopes come to the first binding of a name.  An assignment is a reference
error when there is none and a type error when it is constant, and nothing has changed then.
Otherwise it gives that one binding a new value, which the name has from then on, and changes
nothing else.  The initial value of a `var` differs from that in one point: a constant binding
ignores it. -/
theorem assign_by_nearest {m : Machine} {s : ScopeId} {scopes : List ScopeId}
    (chain : m.ScopeChain s scopes) (name : String) (v : Value) :
    Eval.isBound s name m = .value (m.firstBinding scopes name).isSome m ∧
    Eval.lookup s name m =
      .value ((m.firstBinding scopes name).elim .undefined fun found => found.2.value) m ∧
    ((∃ message m', Eval.assign s name v m = .fault (.referenceError message) m') ↔
      Eval.isBound s name m = .value false m) ∧
    ((∃ message m', Eval.assign s name v m = .fault (.typeError message) m') ↔
      ∃ owner b, m.firstBinding scopes name = some (owner, b) ∧ b.isMutable = false) ∧
    (∀ f m', Eval.assign s name v m = .fault f m' → m' = m) ∧
    (∀ owner b, m.firstBinding scopes name = some (owner, b) → b.isMutable = true →
      ∃ m', Eval.assign s name v m = .value () m' ∧ m.Rebinds owner name v m' ∧
        m'.firstBinding scopes name = some (owner, { b with value := v }) ∧
        Eval.lookup s name m' = .value v m') ∧
    (∀ owner b, m.firstBinding scopes name = some (owner, b) → b.isMutable = false →
      Eval.assignVar s name v m = .value () m) ∧
    ((∀ owner b, m.firstBinding scopes name = some (owner, b) → b.isMutable = true) →
      Eval.assignVar s name v m = Eval.assign s name v m) := by
  have bound := Eval.isBound_of_chain chain name
  have strictly := Eval.writeBinding_of_chain chain name true v
  have leniently := Eval.writeBinding_of_chain chain name false v
  refine ⟨bound, Eval.lookup_of_chain chain name, ?_⟩
  rw [bound, Eval.assignVar, leniently]
  cases first : m.firstBinding scopes name with
  | none =>
      have fails : Eval.assign s name v m = .fault (.undeclared name) m := by
        rw [Eval.assign, strictly, first]
      simp [fails, Fault.undeclared]
  | some found =>
      obtain ⟨owner, b⟩ := found
      cases isMutable : b.isMutable with
      | false =>
          have fails : Eval.assign s name v m = .fault .constantAssigned m := by
            rw [Eval.assign, strictly, first]
            simp [isMutable]
          simp [fails, isMutable, Fault.constantAssigned]
      | true =>
          obtain ⟨m', value, rebinds, reads⟩ :=
            Eval.assign_of_variable chain first isMutable v
          refine ⟨?_, ?_, ?_, ?_, ?_, ?_⟩
          · simp [value]
          · simp [value, isMutable]
          · simp [value]
          · rintro _ _ ⟨⟩ _
            exact ⟨m', value, rebinds, reads⟩
          · rintro _ _ ⟨⟩ constant
            cases isMutable.symm.trans constant
          · intro _
            rw [Eval.assign, strictly, first]
            simp only [isMutable, if_true]

/-- Three scopes, each inside the one before it.  The outermost has constants `x` and `y`, the next
one a variable `x`. -/
def shadowingMachine : Machine :=
  { Machine.empty with
    scopes := #[⟨none, .undefined, .ofList [("x", ⟨.null, false⟩), ("y", ⟨.null, false⟩)]⟩,
      ⟨some ⟨0⟩, .undefined, .ofList [("x", ⟨.undefined, true⟩)]⟩,
      ⟨some ⟨1⟩, .undefined, .ofList [("z", ⟨.undefined, true⟩)]⟩] }

/-- From the innermost scope `x` is the variable, `y` is constant and `w` is not bound. -/
theorem assign_by_nearest_shadowing :
    shadowingMachine.ScopeChain ⟨2⟩ [⟨2⟩, ⟨1⟩, ⟨0⟩] ∧
    (∃ m', Eval.assign ⟨2⟩ "x" (.bool true) shadowingMachine = .value () m' ∧
      Eval.lookup ⟨2⟩ "x" m' = .value (.bool true) m' ∧
      m'.scope ⟨0⟩ = shadowingMachine.scope ⟨0⟩) ∧
    (∃ message m', Eval.assign ⟨2⟩ "y" (.bool true) shadowingMachine =
      .fault (.typeError message) m') ∧
    Eval.assignVar ⟨2⟩ "y" (.bool true) shadowingMachine = .value () shadowingMachine ∧
    ∃ message m', Eval.assign ⟨2⟩ "w" (.bool true) shadowingMachine =
      .fault (.referenceError message) m' := by
  have chain : shadowingMachine.ScopeChain ⟨2⟩ [⟨2⟩, ⟨1⟩, ⟨0⟩] :=
    .link rfl (.link rfl (.last rfl))
  obtain ⟨_, _, _, _, _, variable_x, _⟩ := assign_by_nearest chain "x" (.bool true)
  obtain ⟨_, _, _, constant_y, _, _, ignored_y, _⟩ := assign_by_nearest chain "y" (.bool true)
  obtain ⟨_, _, unbound_w, _⟩ := assign_by_nearest chain "w" (.bool true)
  obtain ⟨m', value, rebinds, _, reads⟩ := variable_x ⟨1⟩ ⟨.undefined, true⟩ rfl rfl
  refine ⟨chain, ⟨m', value, reads, rebinds.others ⟨0⟩ (by decide)⟩, ?_, ?_, ?_⟩
  · exact constant_y.mpr ⟨⟨0⟩, ⟨.null, false⟩, rfl, rfl⟩
  · exact ignored_y ⟨0⟩ ⟨.null, false⟩ rfl rfl
  · exact unbound_w.mpr rfl

end ScriptTree
