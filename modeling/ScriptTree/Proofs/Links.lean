import ScriptTree.Proofs.CallStack
import ScriptTree.Proofs.ScopeFrame
import ScriptTree.Proofs.Termination

/-!
# Links between objects and between scopes

An object is made after its prototype and a scope after the one around it, and neither link is ever
changed.  So links lead from newer to older entries of a store (`Machine.Ordered`), there is no
circle, and every walk has an end.

That a machine is ordered is kept by all that evaluation does, and by what an embedder can do
besides: make objects and scopes out of what is there, and bind names (`Machine.Step`).  A machine
is reachable when such steps lead to it from the one with nothing but the library.
-/

namespace ScriptTree

/-! ## Machines that grow -/

namespace Machine

/-- The scopes of a machine keep their place, their `this` and their names. -/
structure ScopesGrow (m m' : Machine) : Prop where
  size : m.scopes.size ≤ m'.scopes.size
  parent : ∀ s : ScopeId, s.index < m.scopes.size → (m'.scope s).parent = (m.scope s).parent
  receiver : ∀ s : ScopeId, s.index < m.scopes.size → (m'.scope s).receiver = (m.scope s).receiver
  names : ∀ s : ScopeId, s.index < m.scopes.size → (m.scope s).KeepsNames (m'.scope s)

/-- The objects of a machine keep their prototypes. -/
structure PrototypesKept (m m' : Machine) : Prop where
  objects : m.objects.size ≤ m'.objects.size
  prototype : ∀ o : ObjectId, o.index < m.objects.size →
    (m'.object o).prototype = (m.object o).prototype

/-- The objects of a machine keep their prototypes, and its scopes what links them. -/
structure LinksKept (m m' : Machine) : Prop extends m.PrototypesKept m' where
  scopes : m.ScopesGrow m'

variable {m m' m'' : Machine}

namespace ScopesGrow

/-- Nothing happened to the scopes. -/
theorem of_scopes (h : m'.scopes = m.scopes) : m.ScopesGrow m' := by
  have same (s : ScopeId) : m'.scope s = m.scope s := by rw [scope, scope, h]
  refine ⟨Nat.le_of_eq (congrArg Array.size h.symm), fun s _ => ?_, fun s _ => ?_, fun s _ => ?_⟩
  · rw [same]
  · rw [same]
  · rw [same]
    exact fun _ h => h

theorem trans (h : m.ScopesGrow m') (h' : m'.ScopesGrow m'') : m.ScopesGrow m'' where
  size := h.size.trans h'.size
  parent s hs := (h'.parent s (hs.trans_le h.size)).trans (h.parent s hs)
  receiver s hs := (h'.receiver s (hs.trans_le h.size)).trans (h.receiver s hs)
  names s hs := (h.names s hs).trans (h'.names s (hs.trans_le h.size))

theorem push (m : Machine) (scope : Scope) :
    m.ScopesGrow { m with scopes := m.scopes.push scope } := by
  have same (s : ScopeId) (hs : s.index < m.scopes.size) :
      Machine.scope { m with scopes := m.scopes.push scope } s = m.scope s := by
    rw [scope_push, if_neg (Nat.ne_of_lt hs)]
  refine ⟨by simp, fun s hs => ?_, fun s hs => ?_, fun s hs => ?_⟩
  · rw [same s hs]
  · rw [same s hs]
  · rw [same s hs]
    exact fun _ h => h

/-- A scope gets a binding. -/
theorem bind (m : Machine) (s : ScopeId) (name : String) (b : Binding) :
    m.ScopesGrow (m.modifyScope s fun scope =>
      { scope with bindings := scope.bindings.insert name b }) := by
  refine ⟨by simp [modifyScope], fun i _ => ?_, fun i _ => ?_, fun i _ => ?_⟩
  · rw [scope_modify]
    split
    next h => rw [h.1]
    next => rfl
  · rw [scope_modify]
    split
    next h => rw [h.1]
    next => rfl
  · rw [scope_modify]
    split
    next h =>
      rw [h.1]
      exact Scope.keepsNames_insert _ name b
    next => exact fun _ h => h

end ScopesGrow

namespace PrototypesKept

/-- Nothing happened to the objects. -/
theorem of_objects (h : m'.objects = m.objects) : m.PrototypesKept m' where
  objects := Nat.le_of_eq (congrArg Array.size h.symm)
  prototype o _ := by rw [object, object, h]

theorem trans (h : m.PrototypesKept m') (h' : m'.PrototypesKept m'') : m.PrototypesKept m'' where
  objects := h.objects.trans h'.objects
  prototype o ho := (h'.prototype o (ho.trans_le h.objects)).trans (h.prototype o ho)

theorem push (m : Machine) (o : Object) :
    m.PrototypesKept { m with objects := m.objects.push o } where
  objects := by simp
  prototype i hi := by rw [object_push, if_neg (Nat.ne_of_lt hi)]

/-- An object changes, but not its prototype. -/
theorem modify (m : Machine) (o : ObjectId) (f : Object → Object)
    (prototype : ∀ x, (f x).prototype = x.prototype) : m.PrototypesKept (m.modifyObject o f) where
  objects := by simp [modifyObject]
  prototype i _ := by
    rw [object_modify]
    split
    next h => rw [prototype, h.1]
    next => rfl

end PrototypesKept

namespace LinksKept

/-- Nothing happened to the objects. -/
theorem of_objects (objects : m'.objects = m.objects) (scopes : m.ScopesGrow m') :
    m.LinksKept m' :=
  ⟨.of_objects objects, scopes⟩

/-- Nothing happened to the scopes. -/
theorem of_prototypes (h : m.PrototypesKept m') (scopes : m'.scopes = m.scopes) :
    m.LinksKept m' :=
  ⟨h, .of_scopes scopes⟩

theorem trans (h : m.LinksKept m') (h' : m'.LinksKept m'') : m.LinksKept m'' :=
  ⟨h.toPrototypesKept.trans h'.toPrototypesKept, h.scopes.trans h'.scopes⟩

end LinksKept

/-! ## Order -/

/-- An intact machine on which prototypes and surrounding scopes are older than what has them. -/
structure Ordered (m : Machine) : Prop extends m.Intact where
  prototypes : ∀ o p, m.Inherits o p → p.index < o.index
  parents : ∀ s p, m.Inside s p → p.index < s.index

namespace Ordered

/-- Only objects and scopes count. -/
theorem of_stores (h : m.Ordered) (objects : m'.objects = m.objects)
    (scopes : m'.scopes = m.scopes) : m'.Ordered := by
  obtain ⟨_, _, _, _, _⟩ := m'
  cases objects
  cases scopes
  exact ⟨⟨h.intrinsics, h.objects, h.scopes⟩, h.prototypes, h.parents⟩

/-- The age of an entry is its rank, for places past the end as for the next one. -/
theorem grounded (h : m.Ordered) : m.Grounded where
  toIntact := h.toIntact
  prototypes := by
    refine ⟨fun o => min o.index m.objects.size, fun o p hp => ?_, fun o => Nat.min_le_right ..⟩
    have older := h.prototypes o p hp
    have inside := (h.objects o).prototype p hp
    simp only
    omega
  parents := by
    refine ⟨fun s => min s.index m.scopes.size, fun s p hp => ?_, fun s => Nat.min_le_right ..⟩
    have older := h.parents s p hp
    have inside := (h.scopes s).parent p hp
    simp only
    omega

variable (h : m.Ordered)
include h

theorem push {o : Object} (ho : o.Intact m.objects.size m.scopes.size) :
    Machine.Ordered { m with objects := m.objects.push o } := by
  refine ⟨h.toIntact.push ho, fun i p hp => ?_, h.parents⟩
  rw [Inherits, object_push] at hp
  split at hp
  next last =>
    rw [last]
    exact ho.prototype p hp
  next => exact h.prototypes i p hp

theorem modifyObject (o : ObjectId) (f : Object → Object)
    (hf : (m.object o).Intact m.objects.size m.scopes.size →
      (f (m.object o)).Intact m.objects.size m.scopes.size)
    (prototype : ∀ x, (f x).prototype = x.prototype) : (m.modifyObject o f).Ordered := by
  refine ⟨h.toIntact.modifyObject o f hf, fun i p hp => ?_, h.parents⟩
  rw [Inherits, object_modify] at hp
  split at hp
  next changed =>
    rw [prototype, ← changed.1] at hp
    exact h.prototypes i p hp
  next => exact h.prototypes i p hp

theorem pushScope {s : Scope} (hs : s.Intact m.objects.size m.scopes.size) :
    Machine.Ordered { m with scopes := m.scopes.push s } := by
  refine ⟨h.toIntact.pushScope hs, h.prototypes, fun i p hp => ?_⟩
  rw [Inside, scope_push] at hp
  split at hp
  next last =>
    rw [last]
    exact hs.parent p hp
  next => exact h.parents i p hp

theorem bind {v : Value} (s : ScopeId) (name : String) (isMutable : Bool)
    (hv : v.Below m.objects.size) :
    (m.modifyScope s fun scope =>
      { scope with bindings := scope.bindings.insert name ⟨v, isMutable⟩ }).Ordered := by
  refine ⟨h.toIntact.modifyScope s _ fun hs => hs.bind name hv, h.prototypes, fun i p hp => ?_⟩
  rw [Inside, scope_modify] at hp
  split at hp
  next changed =>
    rw [← changed.1] at hp
    exact h.parents i p hp
  next => exact h.parents i p hp

end Ordered

end Machine

/-- The operation is about scopes and objects that the machine has. -/
def Operation.Below (m : Machine) : {α : Type} → Operation α → Prop
  | _, .eval _ s | _, .exec _ s | _, .statements _ s | _, .program _ s => s.index < m.scopes.size
  | _, .call callee receiver arguments target =>
      callee.Below m.objects.size ∧ receiver.Below m.objects.size ∧
        (∀ v ∈ arguments, v.Below m.objects.size) ∧
        ∀ o, target = some o → o.index < m.objects.size
  | _, .construct constructor arguments newTarget =>
      constructor.Below m.objects.size ∧ (∀ v ∈ arguments, v.Below m.objects.size) ∧
        ∀ v, newTarget = some v → v.Below m.objects.size
  | _, .write v _ value => v.Below m.objects.size ∧ value.Below m.objects.size
  | _, .looseEquals left right => left.Below m.objects.size ∧ right.Below m.objects.size
  | _, .read v _ | _, .delete v _ | _, .toPrimitive _ v | _, .toNumber v | _, .toText v
  | _, .toWord v | _, .toObject v | _, .elements v => v.Below m.objects.size

/-! ## The discipline -/

namespace Discipline

/-- Links are ordered, and those of `base` stay as they are. -/
def linked (base : Machine) : Discipline where
  World := { m : Machine // m.Ordered ∧ base.LinksKept m }
  machine := Subtype.val
  console w := w.val.console
  reaches _ w w' := w.val.LinksKept w'.val
  value w v := v.Below w.val.objects.size
  slot w v := v.Below w.val.objects.size
  scope w s := s.index < w.val.scopes.size
  target w o := o.index < w.val.objects.size
  builtin _ := True
  fault w f := ∀ v text trace, f = .thrown v text trace → v.Below w.val.objects.size
  checks := .anything
  fits _ := True
  room _ _ _ := True
  mayEnter _ := True
  mayExhaust := True
  inStep _ := True

variable {base : Machine} {w : (linked base).World}

theorem linked_property {p : Property} :
    (linked base).property w p ↔ p.Below w.val.objects.size := by
  cases p with
  | data value writable => exact Iff.rfl
  | accessor getter setter => exact Iff.rfl

/-- An object that is in order is intact. -/
theorem object.intact_linked {o : Object} (h : (linked base).object w o) :
    o.Intact w.val.objects.size w.val.scopes.size where
  prototype := h.prototype
  entries entry he := linked_property.mp (h.properties entry he)
  host table _ _ hh _ := by
    have hk := h.kind
    rw [hh] at hk
    exact hk.elim
  closure c hc := by
    have hk := h.kind
    rw [hc] at hk
    exact hk.2.2

/-- A change that keeps links and their order. -/
theorem linked_follows {fp : Footprint} (change : Machine → Machine)
    (ordered : (change w.val).Ordered) (kept : w.val.LinksKept (change w.val))
    (console : (change w.val).console = w.val.console) :
    ∃ w', (linked base).Follows fp w w' change ∧ w'.val = change w.val :=
  ⟨⟨change w.val, ordered, w.property.2.trans kept⟩, ⟨kept, rfl, console⟩, rfl⟩

/-- A change of an object that leaves its prototype alone. -/
theorem linked_modifies {fp : Footprint} (o : ObjectId) (f : Object → Object)
    (hf : (w.val.object o).Intact w.val.objects.size w.val.scopes.size →
      (f (w.val.object o)).Intact w.val.objects.size w.val.scopes.size)
    (prototype : ∀ x, (f x).prototype = x.prototype) :
    ∃ w', (linked base).Follows fp w w' (·.modifyObject o f) := by
  obtain ⟨w', follows, _⟩ := linked_follows (·.modifyObject o f)
    (w.property.1.modifyObject o f hf prototype) (.of_prototypes (.modify w.val o f prototype) rfl)
    rfl
  exact ⟨w', follows⟩

theorem linked_binds {fp : Footprint} {v : Value} (s : ScopeId) (name : String) (isMutable : Bool)
    (hv : v.Below w.val.objects.size) :
    ∃ w', (linked base).Follows fp w w' (·.modifyScope s fun scope =>
      { scope with bindings := scope.bindings.insert name ⟨v, isMutable⟩ }) := by
  obtain ⟨w', follows, _⟩ := linked_follows (·.modifyScope s fun scope =>
      { scope with bindings := scope.bindings.insert name ⟨v, isMutable⟩ })
    (w.property.1.bind s name isMutable hv) (.of_objects rfl (.bind w.val s name _)) rfl
  exact ⟨w', follows⟩

theorem linked_lawful : (linked base).Lawful where
  refl _ _ := .of_objects rfl (.of_scopes rfl)
  trans := .trans
  widenScope h := h
  widenTarget h := h
  dropScope _ h := h
  dropTarget _ h := h
  value_mono h hv := hv.mono h.objects
  slot_mono h hv := hv.mono h.objects
  scope_mono h hs := hs.trans_le h.scopes.size
  target_mono h ho := ho.trans_le h.objects
  fault_mono h hf v text trace he := (hf v text trace he).mono h.objects
  intrinsic_ok w _ ho := ho.trans_le w.property.1.intrinsics
  fault_typeError _ _ _ _ _ h := nomatch h
  fault_referenceError _ _ _ _ _ h := nomatch h
  fault_rangeError _ _ _ _ _ h := nomatch h
  fault_thrown _ hv _ _ _ h := by
    cases h
    exact hv
  thrown_value hf := hf _ _ _ rfl
  thrown_text _ hf _ _ _ h := by
    cases h
    exact hf _ _ _ rfl
  fault_internal := .inl fun _ _ _ _ _ h => nomatch h
  fault_functionConstructor _ _ _ _ _ h := nomatch h
  receiver_ok {w s} _ := (w.property.1.scopes s).receiver
  binding_ok {w s name b} hb := (w.property.1.scopes s).bindings _ (Table.mem_of_get? hb)
  shown_ok {w o key p} hp :=
    property.shown (linked_property.mpr ((w.property.1.objects o).shown hp)) fun _ h => h
  entries_ok {w o} entry he := linked_property.mpr ((w.property.1.objects o).entries entry he)
  prototype_ok {w o p} hp := (w.property.1.objects o).prototype p hp
  callable_ok {w v c} hc := by
    obtain ⟨o, kind⟩ := Machine.kind_of_callable? hc
    cases c with
    | closure c => exact ⟨⟨c.code.all_anything, trivial⟩, (w.property.1.objects o).closure c kind⟩
    | builtin b => exact trivial
    | host f => exact trivial
  allocates {w o} ho := by
    obtain ⟨w', follows, same⟩ := linked_follows (fun m => { m with objects := m.objects.push o })
      (w.property.1.push ho.intact_linked) (.of_prototypes (.push w.val o) rfl) rfl
    have last : w.val.objects.size < w'.val.objects.size := by simp [same]
    exact ⟨w', follows, last, fun _ _ => last, fun _ => last⟩
  defines {w o p} key _ hp := linked_modifies o (·.define key p)
    (fun h => h.define key (linked_property.mp hp)) fun _ => rfl
  erases {w o} key _ := linked_modifies o (·.erase key) (fun h => h.erase key) fun _ => rfl
  boxes {w o p} _ _ := linked_modifies o ({ · with kind := .boxed p }) (fun h => h.box p)
    fun _ => rfl
  opensScope {w v parent} hs hv := by
    have intact : Scope.Intact w.val.objects.size w.val.scopes.size ⟨some parent, v, .empty⟩ :=
      ⟨fun p hp => Option.some.inj hp ▸ hs, hv, fun _ he => nomatch he⟩
    obtain ⟨w', follows, same⟩ := linked_follows
      (fun m => { m with scopes := m.scopes.push ⟨some parent, v, .empty⟩ })
      (w.property.1.pushScope intact) (.of_objects rfl (.push w.val _)) rfl
    have last : w.val.scopes.size < w'.val.scopes.size := by simp [same]
    exact ⟨w', follows, last⟩
  declares {w s v} name isMutable _ hv := linked_binds s name isMutable hv
  assigns {w s v name b} _ _ hv := linked_binds s name true hv
  setsClock w clock := by
    obtain ⟨w', follows, _⟩ := linked_follows (fun m => { m with clock := clock })
      (w.property.1.of_stores rfl rfl) (.of_objects rfl (.of_scopes rfl)) rfl
    exact ⟨w', follows⟩
  enters {k w} frame _ _ := by
    -- a stack more or less is no change of links
    have restacked (m : Machine) (stack : List Frame) : m.LinksKept { m with stack := stack } :=
      .of_objects rfl (.of_scopes rfl)
    refine ⟨⟨{ w.val with stack := frame :: w.val.stack }, w.property.1.of_stores rfl rfl,
      w.property.2.trans (restacked ..)⟩, ?_, fun fp w₂ hr => ?_⟩
    · exact {
        machine := rfl
        console := rfl
        value := fun _ h => h
        scope := fun _ h => h
        target := fun _ h => h }
    · exact ⟨⟨{ w₂.val with stack := w₂.val.stack.tail }, w₂.property.1.of_stores rfl rfl,
        w₂.property.2.trans (restacked ..)⟩, {
        reaches := (restacked ..).trans (hr.trans (restacked ..))
        machine := rfl
        console := rfl
        value := fun _ h => h
        fault := fun _ h => h }⟩

theorem linked_agree (settings : Settings) : (linked base).Agree settings settings := by
  refine linked_lawful.agree settings (fun _ _ _ _ _ _ h => nomatch h) (fun _ _ => trivial) ?_
  intro w line
  have printed : w.val.LinksKept { w.val with console := w.val.console.push line } :=
    .of_objects rfl (.of_scopes rfl)
  exact ⟨⟨{ w.val with console := w.val.console.push line }, w.property.1.of_stores rfl rfl,
    w.property.2.trans printed⟩, printed, rfl, rfl⟩

theorem linked_requests {k : Nat} {α : Type} {op : Operation α} (h : op.Below w.val) :
    (linked base).Requests k w op := by
  cases op with
  | eval e s => exact ⟨⟨e.all_anything, trivial⟩, h⟩
  | exec stmt s => exact ⟨⟨stmt.all_anything, trivial⟩, h, fun _ _ => trivial⟩
  | statements body s => exact ⟨⟨allStmts_anything body, trivial⟩, h, fun _ _ => trivial⟩
  | program p s =>
      refine ⟨⟨allStmts_anything p.body, trivial⟩, h, fun refines => ?_⟩
      cases refines.expr .unsupported rfl
  | call callee receiver arguments target => exact ⟨h.1, h.2.1, h.2.2.1, h.2.2.2, trivial⟩
  | construct constructor arguments newTarget => exact ⟨h.1, h.2.1, h.2.2, trivial⟩
  | write v key value => exact ⟨h.1, h.2, trivial⟩
  | looseEquals left right => exact ⟨h.1, h.2, trivial⟩
  | delete v key => exact h
  | toObject v => exact h
  | _ => exact ⟨h, trivial⟩

end Discipline

/-! ## In the middle of an evaluation -/

/-- Does `alarm` in place of an action on a machine that fails the test. -/
def Eval.guarded {α : Type} (test : Machine → Bool) (alarm x : Eval α) : Eval α := fun m =>
  if test m then x m else alarm m

/-- Runs a task, and every task below it, on machines that pass the test only. -/
def guardedRun (settings : Settings) (test : Machine → Bool) (alarm : (α : Type) → Eval α) :
    Nat → {α : Type} → Task α → Eval α
  | 0, _, _ => Eval.exhausted
  | fuel + 1, _, task =>
      Eval.guarded test (alarm _)
        (Runner.step ⟨settings, fuel, guardedRun settings test alarm fuel⟩ task)

/-- The runner that puts every machine to the test before a task. -/
def Settings.guardedRunner (settings : Settings) (test : Machine → Bool)
    (alarm : (α : Type) → Eval α) (fuel : Nat) : Runner :=
  ⟨settings, fuel, guardedRun settings test alarm fuel⟩

/-- The test lets ordered machines pass that have the links of `base`. -/
def Machine.Passes (base : Machine) (test : Machine → Bool) : Prop :=
  ∀ m : Machine, m.Ordered → base.LinksKept m → test m = true

namespace Discipline

/-- A test that all machines of a lawful discipline pass is of no consequence. -/
theorem Lawful.guarded {D : Discipline} (law : D.Lawful) {settings : Settings}
    (agree : D.Agree settings settings) {test : Machine → Bool}
    (passes : ∀ w, test (D.double w) = true) (alarm : (α : Type) → Eval α) (fuel : Nat) :
    D.Matches fuel (settings.runner fuel) (settings.guardedRunner test alarm fuel) := by
  induction fuel with
  | zero =>
      refine ⟨law, agree.toAgreeInside, ?_, Nat.le_refl 0, fun _ => rfl⟩
      exact (law.runner agree (Nat.le_refl 0) fun _ => rfl).run
  | succ fuel ih =>
      refine ⟨law, agree.toAgreeInside, ?_, Nat.le_refl _, fun _ => rfl⟩
      intro α task w admitted
      exact (ih.step agree task w admitted).congr rfl (if_pos (passes w))

theorem Lawful.perform_guarded {D : Discipline} (law : D.Lawful) {settings : Settings}
    (agree : D.Agree settings settings) (same : ∀ w, D.double w = D.machine w)
    (step : ∀ w, D.inStep w) {test : Machine → Bool} (passes : ∀ w, test (D.machine w) = true)
    (alarm : (α : Type) → Eval α) {fuel : Nat} {α : Type} {op : Operation α} {w : D.World}
    (requested : D.Requests fuel w op) :
    op.perform (settings.guardedRunner test alarm fuel) (D.machine w) =
      op.perform (settings.runner fuel) (D.machine w) := by
  have runs := law.guarded agree (fun w => (same w).symm ▸ passes w) alarm fuel
  exact (runs.operation op requested).eq_companion same fun w' _ => step w'

end Discipline

namespace Operation

variable {α : Type} {op : Operation α} {m : Machine} (settings : Settings) (fuel : Nat)

/-- Every operation keeps links and their order. -/
theorem perform_links (ordered : m.Ordered) (h : op.Below m) :
    (op.perform (settings.runner fuel) m).machine.Ordered ∧
      m.LinksKept (op.perform (settings.runner fuel) m).machine := by
  have same : m.LinksKept m := .of_objects rfl (.of_scopes rfl)
  obtain ⟨w', _, ends⟩ := Discipline.linked_lawful.perform (Discipline.linked_agree settings) fuel
    op (w := ⟨m, ordered, same⟩) (Discipline.linked_requests h)
  have left : (op.perform (settings.runner fuel) m).machine = w'.val := ends
  rw [left]
  exact w'.property

/-- No evaluation comes to a task on a machine with other links than it found. -/
theorem perform_guarded {test : Machine → Bool} (alarm : (α : Type) → Eval α)
    (passes : m.Passes test) (ordered : m.Ordered) (h : op.Below m) :
    op.perform (settings.guardedRunner test alarm fuel) m =
      op.perform (settings.runner fuel) m := by
  have same : m.LinksKept m := .of_objects rfl (.of_scopes rfl)
  exact Discipline.linked_lawful.perform_guarded (Discipline.linked_agree settings) (fun _ => rfl)
    (fun _ => trivial) (fun w => passes w.val w.property.1 w.property.2) alarm
    (w := ⟨m, ordered, same⟩) (Discipline.linked_requests h)

end Operation

/-! ## Reachable machines -/

namespace Machine

/-- What can become of a machine from one moment to the next, seen from outside: an operation, or
something that an embedder makes of what the machine has. -/
inductive Step (m : Machine) : Machine → Prop where
  | perform (settings : Settings) (fuel : Nat) {α : Type} (op : Operation α) (h : op.Below m) :
      Step m (op.perform (settings.runner fuel) m).machine
  | allocate (o : Object) (h : o.Intact m.objects.size m.scopes.size) :
      Step m (Eval.allocate o m).machine
  | define (o : ObjectId) (key : String) (p : Property) (h : p.Below m.objects.size) :
      Step m (Eval.define o key p m).machine
  | declare (s : ScopeId) (name : String) (v : Value) (isMutable : Bool)
      (h : v.Below m.objects.size) : Step m (Eval.declare s name v isMutable m).machine
  | childScope (s : ScopeId) (h : s.index < m.scopes.size) : Step m (Eval.childScope s m).machine
  | openGlobal (setup : GlobalSetup) (receiver : setup.receiver.Below m.objects.size)
      (extras : ∀ entry ∈ setup.extras, entry.2.Below m.objects.size) :
      Step m (Eval.openGlobal setup m).machine

/-- Steps lead to the machine from the one with nothing but the library. -/
def Reachable : Machine → Prop := Relation.ReflTransGen Step Realm.machine

/-- The machine has the values of the global names. -/
def HasLibrary (m : Machine) : Prop := ∀ entry ∈ Realm.globals, entry.2.value.Below m.objects.size

variable {m m' : Machine}

theorem Ordered.openGlobal (h : m.Ordered) (library : m.HasLibrary) {setup : GlobalSetup}
    (receiver : setup.receiver.Below m.objects.size)
    (extras : ∀ entry ∈ setup.extras, entry.2.Below m.objects.size) :
    (Eval.openGlobal setup m).machine.Ordered := by
  refine h.pushScope ⟨by simp, receiver, fun entry he => ?_⟩
  rcases List.mem_append.mp (Table.mem_ofList he) with he | he
  · exact library entry he
  · obtain ⟨extra, hextra, rfl⟩ := List.mem_map.mp he
    exact extras extra hextra

/-- A step keeps links and their order. -/
theorem Step.links (step : m.Step m') (ordered : m.Ordered) (library : m.HasLibrary) :
    m'.Ordered ∧ m.LinksKept m' := by
  cases step with
  | perform settings fuel op h => exact op.perform_links settings fuel ordered h
  | allocate o h => exact ⟨ordered.push h, .of_prototypes (.push m o) rfl⟩
  | define o key p h =>
      exact ⟨ordered.modifyObject o _ (fun ho => ho.define key h) fun _ => rfl,
        .of_prototypes (.modify m o _ fun _ => rfl) rfl⟩
  | declare s name v isMutable h =>
      exact ⟨ordered.bind s name isMutable h, .of_objects rfl (.bind m s name _)⟩
  | childScope s h =>
      have intact : Scope.Intact m.objects.size m.scopes.size
          ⟨some s, (m.scope s).receiver, .empty⟩ :=
        ⟨fun p hp => Option.some.inj hp ▸ h, (ordered.scopes s).receiver, fun _ he => nomatch he⟩
      exact ⟨ordered.pushScope intact, .of_objects rfl (.push m _)⟩
  | openGlobal setup receiver extras =>
      exact ⟨ordered.openGlobal library receiver extras, .of_objects rfl (.push m _)⟩

end Machine

/-- The prototypes alone are in order. -/
theorem Realm.prototypes_ordered :
    Machine.Ordered { Machine.empty with objects := prototypes } where
  toIntact := (prototypes_bounded 0).toIntact
  prototypes o p hp := by
    obtain ⟨q, he, hq⟩ := object_prototypes o.index
    rw [Machine.Inherits, Machine.object, he] at hp
    exact (hq p hp).trans_le (Nat.min_le_left ..)
  parents s p hp := by cases hp

theorem Realm.machine_ordered : machine.Ordered ∧ machine.HasLibrary := by
  obtain ⟨w, hw, globals⟩ := Discipline.linked_lawful.realm (fun _ => trivial)
    (w := ⟨_, prototypes_ordered, .of_objects rfl (.of_scopes rfl)⟩) rfl
  rw [← hw]
  exact ⟨w.property.1, globals⟩

namespace Machine

variable {m : Machine}

theorem Reachable.ordered (h : m.Reachable) : m.Ordered ∧ m.HasLibrary := by
  induction h with
  | refl => exact Realm.machine_ordered
  | tail _ step ih =>
      obtain ⟨ordered, library⟩ := ih
      obtain ⟨ordered', kept⟩ := step.links ordered library
      exact ⟨ordered', fun entry he => (library entry he).mono kept.objects⟩

end Machine

/-! ## Walks on reachable machines -/

namespace Eval

variable {α : Type} {m : Machine}

/-- A search that has an end has an answer, and changes nothing. -/
theorem search_value {f : Machine → Search α} (h : f m ≠ .endless) :
    ∃ found, search f m = .value found m := by
  rw [search]
  cases hf : f m with
  | found a => exact ⟨_, rfl⟩
  | absent => exact ⟨_, rfl⟩
  | endless => exact absurd hf h

theorem nearest?_value (h : m.Ordered) (s : ScopeId) (name : String) :
    ∃ found, nearest? s name m = .value found m :=
  search_value (h.grounded.nearest_ends s name)

theorem lookup_value (h : m.Ordered) (s : ScopeId) (name : String) :
    ∃ v, lookup s name m = .value v m := by
  obtain ⟨found, hfound⟩ := nearest?_value h s name
  cases found with
  | none => exact ⟨_, bind_of_value hfound⟩
  | some pair => exact ⟨_, bind_of_value hfound⟩

theorem isBound_value (h : m.Ordered) (s : ScopeId) (name : String) :
    ∃ b, isBound s name m = .value b m := by
  obtain ⟨found, hfound⟩ := nearest?_value h s name
  exact ⟨_, bind_of_value hfound⟩

theorem writeBinding_ends (h : m.Ordered) (strict : Bool) (s : ScopeId) (name : String)
    (v : Value) (m' : Machine) : writeBinding strict s name v m ≠ .exhausted m' := by
  obtain ⟨found, hfound⟩ := nearest?_value h s name
  rw [writeBinding, bind_of_value hfound]
  cases found with
  | none =>
      intro he
      cases he
  | some pair =>
      obtain ⟨owner, value, isMutable⟩ := pair
      intro he
      cases isMutable with
      | true => cases he
      | false => cases strict <;> cases he

end Eval

/-- On every reachable machine a prototype is older than what inherits from it and a scope older
than what is inside it, so there is no circle.  No step gives an object another prototype, or a
scope another parent or `this`, and no evaluation does so on the way.  So the walks for a property
and for a name have an end. -/
theorem reachable_links_fixed {m : Machine} (h : m.Reachable) :
    (∀ o p, (m.object o).prototype = some p → p.index < o.index) ∧
    (∀ s p, (m.scope s).parent = some p → p.index < s.index) ∧
    m.Acyclic ∧
    (∀ m', m.Step m' →
      (∀ o : ObjectId, o.index < m.objects.size →
        (m'.object o).prototype = (m.object o).prototype) ∧
      ∀ s : ScopeId, s.index < m.scopes.size →
        (m'.scope s).parent = (m.scope s).parent ∧
          (m'.scope s).receiver = (m.scope s).receiver) ∧
    (∀ (test : Machine → Bool) (alarm : (α : Type) → Eval α), m.Passes test →
      ∀ (settings : Settings) (fuel : Nat) (α : Type) (op : Operation α), op.Below m →
        op.perform (settings.guardedRunner test alarm fuel) m =
          op.perform (settings.runner fuel) m) ∧
    (∀ o key, ∃ found, Eval.property? o key m = .value found m) ∧
    ∀ s name, (∃ v, Eval.lookup s name m = .value v m) ∧
      (∃ b, Eval.isBound s name m = .value b m) ∧
      ∀ strict v m', Eval.writeBinding strict s name v m ≠ .exhausted m' := by
  obtain ⟨ordered, library⟩ := h.ordered
  refine ⟨ordered.prototypes, ordered.parents, ordered.grounded.acyclic, fun m' step => ?_, ?_, ?_,
    fun s name => ?_⟩
  · obtain ⟨_, kept⟩ := step.links ordered library
    exact ⟨kept.prototype, fun s hs => ⟨kept.scopes.parent s hs, kept.scopes.receiver s hs⟩⟩
  · intro test alarm passes settings fuel α op below
    exact op.perform_guarded settings fuel alarm passes ordered below
  · intro o key
    exact Eval.search_value (ordered.grounded.property_ends o key)
  · exact ⟨Eval.lookup_value ordered s name, Eval.isBound_value ordered s name,
      fun strict => Eval.writeBinding_ends ordered strict s name⟩

/-- `function F() {}  var o = new F();` -/
def constructingProgram : Program :=
  ⟨[.function ⟨some "F", [], .block [], false, false, none⟩,
    .declaration .var [⟨.ident "o", some (.construct (.ident "F") [])⟩]]⟩

theorem reachable_links_fixed_construct :
    let m := (Session.start .standard (pure ⟨.undefined, []⟩)).machine
    let m' := ((Settings.standard.runner 9).evalProgram .global constructingProgram m).machine
    m'.Reachable ∧ (∀ o p, (m'.object o).prototype = some p → p.index < o.index) ∧
      (m'.scope .global).receiver = (m.scope .global).receiver ∧
      ∃ v, Eval.lookup .global "o" m' = .value v m' := by
  intro m m'
  have started : m.Reachable := .single (.openGlobal ⟨.undefined, []⟩ trivial (by simp))
  have global : ScopeId.global.index < m.scopes.size := by
    show 0 < m.scopes.size
    simp only [m, Session.start_machine, Array.size_push, Nat.zero_lt_succ]
  have step : m.Step m' := .perform .standard 9 (.program constructingProgram .global) global
  have before := reachable_links_fixed started
  have after := reachable_links_fixed (started.tail step)
  exact ⟨started.tail step, after.1, ((before.2.2.2.1 m' step).2 .global global).2,
    (after.2.2.2.2.2.2 .global "o").1⟩

end ScriptTree
