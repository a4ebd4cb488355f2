import ScriptTree.Interpreter
import ScriptTree.Proofs.Stores
import ScriptTree.Proofs.Syntax

/-!
# Disciplines

Many facts about evaluation have one shape: whatever a script does, something is kept.  The calls
that were active are active again, the names of a scope stay, references lead somewhere, faults are
of certain kinds, two interpreters do the same.  A *discipline* is such a thing to keep, and this
module says what it means that an action keeps it.

A discipline has *worlds*.  A world stands for a machine together with what is known of it, and for
a second machine, its *double*, which may have another console.  `reaches` orders the worlds: later
worlds know more.  An action and a companion keep the discipline (`Keeps`) when from the machine of
a world and from its double they end alike, at a later world, with a value that is in order there.
With one machine and one action in both places this is an invariant; with two interpreters it is a
simulation.

What an action may do to the things it found is its *footprint*: it may bind names in one scope, and
make one object the box of a primitive.  Everything else that it binds or boxes it has made itself,
so a footprint that names a thing which did not exist before is no footprint at all (`dropScope`,
`dropTarget`).

`Lawful` lists what the primitive actions have to satisfy.  The modules after this one show that
every rule of the language then keeps the discipline, and `Runs` that every evaluation does.  A
discipline that asks nothing of values and trees is lawful as soon as its worlds follow what actions
change (`Carefree.lawful`).
-/

namespace ScriptTree

/-! ## One action after another -/

namespace Eval

variable {α β : Type} {x : Eval α} {f : α → Eval β} {m m' : Machine}

theorem bind_of_value {a : α} (h : x m = .value a m') : (x >>= f) m = f a m' := by
  show Eval.bind x f m = f a m'
  rw [Eval.bind, h]

theorem bind_of_fault {e : Fault} (h : x m = .fault e m') : (x >>= f) m = .fault e m' := by
  show Eval.bind x f m = .fault e m'
  rw [Eval.bind, h]

theorem bind_of_exhausted (h : x m = .exhausted m') : (x >>= f) m = .exhausted m' := by
  show Eval.bind x f m = .exhausted m'
  rw [Eval.bind, h]

end Eval

/-! ## Disciplines -/

/-- The values of a property. -/
def Property.values : Property → List Value
  | .data value _ => [value]
  | .accessor getter setter => [getter, setter]

/-- What an action may change of what it found: the names one scope binds, and the kind of one
object under construction. -/
structure Footprint where
  scope : Option ScopeId
  target : Option ObjectId

/-- The footprint of an expression. -/
def Footprint.nothing : Footprint := ⟨none, none⟩

/-- Something that evaluation keeps. -/
structure Discipline where
  World : Type
  machine : World → Machine
  /-- The console of the double. -/
  console : World → Array Line
  /-- What can become of a world. -/
  reaches : Footprint → World → World → Prop
  /-- The values that can be met. -/
  value : World → Value → Prop
  /-- The values that can be a getter or a setter. -/
  slot : World → Value → Prop
  /-- The scopes that code runs in. -/
  scope : World → ScopeId → Prop
  /-- The objects that can be under construction. -/
  target : World → ObjectId → Prop
  /-- The functions of the library that can be met. -/
  builtin : Builtin → Prop
  /-- The faults that can be met. -/
  fault : World → Fault → Prop
  /-- What is asked of trees. -/
  checks : Checks
  /-- The sizes of functions. -/
  fits : Nat → Prop
  /-- Whether a task over a tree of some size may start, with the given fuel. -/
  room : Nat → World → Nat → Prop
  /-- Whether one more call may become active. -/
  mayEnter : World → Prop
  /-- Whether an action may be exhausted. -/
  mayExhaust : Prop
  /-- Whether the companion is exhausted with the action, when the action is so at a world. -/
  inStep : World → Prop
  /-- The names that code in a scope may take to be bound around it. -/
  sees : World → ScopeId → String → Prop := fun _ _ _ => True

namespace Discipline

variable (D : Discipline)

/-! ## What is in order in a world -/

/-- The second machine of a world. -/
def double (w : D.World) : Machine := { D.machine w with console := D.console w }

/-- The properties that can be met. -/
def property (w : D.World) : Property → Prop
  | .data value _ => D.value w value
  | .accessor getter setter => D.slot w getter ∧ D.slot w setter

/-- The properties that an object can show without having them in its table. -/
def shown (w : D.World) (p : Property) : Prop := ∀ v ∈ p.values, D.value w v

/-- The functions that can be written. -/
def code (f : FunctionCode) : Prop := f.all D.checks = true ∧ D.fits (sizeOf f)

/-- The functions that can be met. -/
def callable (w : D.World) : Callable → Prop
  | .closure c => D.code c.code ∧ D.scope w c.scope
  | .builtin b => D.builtin b
  | .host _ => True

/-- What an evaluation can make an object be. -/
def kind (w : D.World) (prototype : Option ObjectId) : ObjectKind → Prop
  | .ordinary => True
  | .function callable => prototype = some .functionPrototype ∧ D.callable w callable
  | .boxed p => p.isNullish = false
  | .host _ => False

/-- The objects that an evaluation can make. -/
structure object (w : D.World) (o : Object) : Prop where
  prototype : ∀ p, o.prototype = some p → D.value w (.object p)
  properties : ∀ entry ∈ o.properties.entries, D.property w entry.2
  kind : D.kind w o.prototype o.kind
  keys : o.properties.Distinct

/-- How a statement with the given jumps can end. -/
def ends (js : List Jump) (w : D.World) : Completion → Prop
  | .normal value => D.value w value
  | .ret value => D.value w value ∧ Jump.ret ∈ js
  | .brk => Jump.brk ∈ js
  | .cont => Jump.cont ∈ js

/-- What an attempt can end with, when the action ends with `Q`. -/
def attempted {α : Type} (Q : D.World → α → Prop) (w : D.World) : Except Fault α → Prop
  | .ok a => Q w a
  | .error f => D.fault w f

/-- A scope is ready for code that hoists the given names. -/
def ready (w : D.World) (s : ScopeId) (names : List String) : Prop :=
  ∀ name ∈ names, D.sees w s name

/-- A tree passes the checks, and there is room for it.  `passes` is the answer of the checks and
`size` the size of the tree. -/
structure Fits (fuel : Nat) (w : D.World) (passes : Bool) (size : Nat) : Prop where
  passes : passes = true
  room : D.room fuel w size

/-- The world has followed a change of its machine. -/
structure Follows (fp : Footprint) (w w' : D.World) (change : Machine → Machine) : Prop where
  reaches : D.reaches fp w w'
  machine : D.machine w' = change (D.machine w)
  console : D.console w' = D.console w

/-- The world has got one more active call, in which there is room for every function. -/
structure Enters (fuel : Nat) (frame : Frame) (w w' : D.World) : Prop where
  machine : D.machine w' = { D.machine w with stack := frame :: (D.machine w).stack }
  console : D.console w' = D.console w
  value : ∀ v, D.value w v → D.value w' v := by intros; trivial
  scope : ∀ s, D.scope w s → D.scope w' s := by intros; trivial
  target : ∀ o, D.target w o → D.target w' o := by intros; trivial
  calls : D.room fuel w' 0 := by trivial
  room : ∀ n, D.fits n → D.room fuel w' n := by intros; trivial

/-- The call that `inner` is in has ended, and `outer` has become `w`. -/
structure Returns (fp : Footprint) (outer inner w : D.World) : Prop where
  reaches : D.reaches fp outer w
  machine : D.machine w = { D.machine inner with stack := (D.machine inner).stack.tail }
  console : D.console w = D.console inner
  value : ∀ v, D.value inner v → D.value w v := by intros; trivial
  fault : ∀ f, D.fault inner f → D.fault w f := by intros; trivial
  inStep : D.inStep w → D.inStep inner := by intros; trivial

/-! ## Keeping the discipline -/

/-- An action and its companion end alike, at a later world, with what is in order there. -/
inductive Keeps {α : Type} (fp : Footprint) (w : D.World) (x y : Eval α)
    (Q : D.World → α → Prop) : Prop where
  | value (w' : D.World) (a : α) (reaches : D.reaches fp w w')
      (left : x (D.machine w) = .value a (D.machine w'))
      (right : y (D.double w) = .value a (D.double w')) (post : Q w' a)
  | fault (w' : D.World) (f : Fault) (reaches : D.reaches fp w w')
      (left : x (D.machine w) = .fault f (D.machine w'))
      (right : y (D.double w) = .fault f (D.double w')) (post : D.fault w' f)
  | exhausted (w' : D.World) (reaches : D.reaches fp w w')
      (left : x (D.machine w) = .exhausted (D.machine w')) (may : D.mayExhaust)
      (right : D.inStep w' → y (D.double w) = .exhausted (D.double w'))

/-! ## The laws -/

/-- What the primitive actions have to satisfy.  Laws about conditions that ask nothing hold by
themselves. -/
structure Lawful : Prop where
  refl : ∀ fp w, D.reaches fp w w := by intros; trivial
  trans : ∀ {fp u v w}, D.reaches fp u v → D.reaches fp v w → D.reaches fp u w := by
    intros; trivial
  widenScope : ∀ {s t w w'}, D.reaches ⟨none, t⟩ w w' → D.reaches ⟨s, t⟩ w w' := by
    intros; trivial
  widenTarget : ∀ {s t w w'}, D.reaches ⟨s, none⟩ w w' → D.reaches ⟨s, t⟩ w w' := by
    intros; trivial
  dropScope : ∀ {s t w w'}, (D.machine w).scopes.size ≤ s.index →
    D.reaches ⟨some s, t⟩ w w' → D.reaches ⟨none, t⟩ w w' := by intros; trivial
  dropTarget : ∀ {s o w w'}, (D.machine w).objects.size ≤ o.index →
    D.reaches ⟨s, some o⟩ w w' → D.reaches ⟨s, none⟩ w w' := by intros; trivial
  -- what is in order stays in order
  value_mono : ∀ {fp w w' v}, D.reaches fp w w' → D.value w v → D.value w' v := by
    intros; trivial
  slot_mono : ∀ {fp w w' v}, D.reaches fp w w' → D.slot w v → D.slot w' v := by intros; trivial
  scope_mono : ∀ {fp w w' s}, D.reaches fp w w' → D.scope w s → D.scope w' s := by
    intros; trivial
  target_mono : ∀ {fp w w' o}, D.reaches fp w w' → D.target w o → D.target w' o := by
    intros; trivial
  fault_mono : ∀ {fp w w' f}, D.reaches fp w w' → D.fault w f → D.fault w' f := by
    intros; trivial
  room_mono : ∀ {fp w w' k n}, D.reaches fp w w' → D.room k w n → D.room k w' n := by
    intros; trivial
  sees_mono : ∀ {fp w w' s name}, D.reaches fp w w' → D.sees w s name → D.sees w' s name := by
    intros; trivial
  -- values
  primitive_ok : ∀ w p, D.value w (.primitive p) := by intros; trivial
  intrinsic_ok : ∀ w (o : ObjectId), o.index < 10 → D.value w (.object o) := by intros; trivial
  slot_value : ∀ {w v}, D.slot w v → D.value w v := by intros; trivial
  slot_undefined : ∀ w, D.slot w .undefined := by intros; trivial
  slot_callable : ∀ {w v}, D.value w v → (D.machine w).isCallable v = true → D.slot w v := by
    intros; trivial
  target_value : ∀ {w o}, D.target w o → D.value w (.object o) := by intros; trivial
  -- sizes
  room_sub : ∀ {k w n n'}, D.room (k + 1) w n → n' < n → D.room k w n' := by intros; trivial
  room_le : ∀ {k w n n'}, D.room k w n → n' ≤ n → D.room k w n' := by intros; trivial
  room_fits : ∀ {k w n}, D.room k w n → D.fits n := by intros; trivial
  room_zero : D.mayExhaust ∨ ∀ w n, ¬D.room 0 w n := by exact .inl trivial
  -- faults
  fault_typeError : ∀ w message, D.fault w (.typeError message) := by intros; trivial
  fault_referenceError : ∀ w message, D.fault w (.referenceError message) := by intros; trivial
  fault_rangeError : ∀ w message, D.fault w (.rangeError message) := by intros; trivial
  fault_thrown : ∀ {w v} text, D.value w v →
    D.fault w (.thrown v text (D.machine w).stack) := by intros; trivial
  thrown_value : ∀ {w v text trace}, D.fault w (.thrown v text trace) → D.value w v := by
    intros; trivial
  thrown_text : ∀ {w v text trace} text', D.fault w (.thrown v text trace) →
    D.fault w (.thrown v text' trace) := by intros; trivial
  fault_internal : (∀ w message, D.fault w (.internal message (D.machine w).stack)) ∨
    D.checks.Refines .supported := by exact .inl fun _ _ => trivial
  fault_functionConstructor : ∀ w, D.builtin .functionConstructor → D.fault w (.internal
    ("Unsupported syntax: " ++ "Function constructor (no source parser available)")
    (D.machine w).stack) := by intros; trivial
  -- trees
  loops : D.mayExhaust ∨ ∀ s : Stmt, D.checks.stmt s = true → s.isLoop = false := by
    exact .inl trivial
  accessors : (∀ w v, D.value w v → D.slot w v) ∨
    ∀ e : Expr, D.checks.expr e = true → e.accessorsAreFunctions = true := by
      exact .inl fun _ _ h => h
  -- reading
  receiver_ok : ∀ {w s}, D.scope w s → D.value w ((D.machine w).scope s).receiver := by
    intros; trivial
  binding_ok : ∀ {w s name b}, ((D.machine w).scope s).bindings.get? name = some b →
    D.value w b.value := by intros; trivial
  shown_ok : ∀ {w o key p}, ((D.machine w).object o).kind.property? key = some p →
    D.shown w p := by intros; exact fun _ _ => trivial
  target_shown : (∀ w v, D.value w v → D.slot w v) ∨
    ∀ w o key p, D.target w o → ((D.machine w).object o).kind.property? key = some p →
      D.property w p := by exact .inl fun _ _ h => h
  entries_ok : ∀ {w o}, ∀ entry ∈ ((D.machine w).object o).properties.entries,
    D.property w entry.2
  prototype_ok : ∀ {w o p}, ((D.machine w).object o).prototype = some p →
    D.value w (.object p) := by intros; trivial
  callable_ok : ∀ {w v c}, (D.machine w).callable? v = some c → D.callable w c
  scopes_end : D.mayExhaust ∨ ∀ w s name, (D.machine w).nearest s name ≠ .endless := by
    exact .inl trivial
  prototypes_end : D.mayExhaust ∨ ∀ w o key, (D.machine w).property o key ≠ .endless := by
    exact .inl trivial
  -- changing
  allocates : ∀ {w o}, D.object w o → ∃ w',
    D.Follows .nothing w w' (fun m => { m with objects := m.objects.push o }) ∧
      D.value w' (.object ⟨(D.machine w).objects.size⟩) ∧
      (∀ c, o.kind = .function c → D.slot w' (.object ⟨(D.machine w).objects.size⟩)) ∧
      (o.kind = .ordinary → D.target w' ⟨(D.machine w).objects.size⟩)
  defines : ∀ {w o p} key, D.value w (.object o) → D.property w p → ∃ w',
    D.Follows .nothing w w' (fun m => m.modifyObject o fun object => object.define key p)
  erases : ∀ {w o} key, D.value w (.object o) → ∃ w',
    D.Follows .nothing w w' (fun m => m.modifyObject o fun object => object.erase key)
  boxes : ∀ {w o p}, D.target w o → p.isNullish = false → ∃ w',
    D.Follows ⟨none, some o⟩ w w'
      (fun m => m.modifyObject o fun object => { object with kind := .boxed p })
  opensScope : ∀ {w v parent}, D.scope w parent → D.value w v → ∃ w',
    D.Follows .nothing w w'
        (fun m => { m with scopes := m.scopes.push ⟨some parent, v, .empty⟩ }) ∧
      D.scope w' ⟨(D.machine w).scopes.size⟩
  declares : ∀ {w s v} name isMutable, D.scope w s → D.value w v → ∃ w',
    D.Follows ⟨some s, none⟩ w w' (fun m => m.modifyScope s fun scope =>
      { scope with bindings := scope.bindings.insert name ⟨v, isMutable⟩ })
  assigns : ∀ {w s v name b}, ((D.machine w).scope s).bindings.get? name = some b →
    b.isMutable = true → D.value w v → ∃ w',
      D.Follows .nothing w w' (fun m => m.modifyScope s fun scope =>
        { scope with bindings := scope.bindings.insert name ⟨v, true⟩ })
  setsClock : ∀ w clock, ∃ w', D.Follows .nothing w w' fun m => { m with clock := clock }
  -- names around a scope
  sees_here : ∀ {w s name}, ((D.machine w).scope s).bindings.contains name = true →
    D.sees w s name := by intros; trivial
  sees_opened : ∀ {fp w w' v parent name}, D.sees w parent name →
    D.Follows fp w w' (fun m => { m with scopes := m.scopes.push ⟨some parent, v, .empty⟩ }) →
      D.sees w' ⟨(D.machine w).scopes.size⟩ name := by intros; trivial
  sees_declared : ∀ {fp w w' s name b}, D.scope w s →
    D.Follows fp w w' (fun m => m.modifyScope s fun scope =>
      { scope with bindings := scope.bindings.insert name b }) → D.sees w' s name := by
    intros; trivial
  -- calls
  enters : ∀ {k w} frame, D.mayEnter w → D.room (k + 1) w 0 → ∃ w₁, D.Enters k frame w w₁ ∧
    ∀ fp w₂, D.reaches fp w₁ w₂ → ∃ w₃, D.Returns fp w w₂ w₃

/-- Where every value is in order, every property is. -/
theorem property_of_values {D : Discipline} {w : D.World} (value : ∀ v, D.value w v)
    (slot : ∀ v, D.slot w v) (p : Property) : D.property w p := by
  cases p with
  | data v writable => exact value v
  | accessor getter setter => exact ⟨slot getter, slot setter⟩

theorem property.shown {D : Discipline} {w : D.World} {p : Property} (h : D.property w p)
    (slots : ∀ v, D.slot w v → D.value w v) : D.shown w p := by
  cases p with
  | data value writable => exact List.forall_mem_singleton.mpr h
  | accessor getter setter =>
      have last : ∀ v ∈ [setter], D.value w v := List.forall_mem_singleton.mpr (slots _ h.2)
      exact List.forall_mem_cons.mpr ⟨slots _ h.1, last⟩

theorem Enters.callable {D : Discipline} {k : Nat} {frame : Frame} {w w' : D.World}
    (h : D.Enters k frame w w') {c : Callable} (hc : D.callable w c) : D.callable w' c := by
  cases c with
  | closure c => exact ⟨hc.1, h.scope _ hc.2⟩
  | builtin b => exact hc
  | host f => exact trivial

theorem Enters.double {D : Discipline} {k : Nat} {frame : Frame} {w w' : D.World}
    (h : D.Enters k frame w w') :
    D.double w' = { D.double w with stack := frame :: (D.double w).stack } := by
  simp only [Discipline.double, h.machine, h.console]

theorem Returns.double {D : Discipline} {fp : Footprint} {outer inner w : D.World}
    (h : D.Returns fp outer inner w) :
    D.double w = { D.double inner with stack := (D.double inner).stack.tail } := by
  simp only [Discipline.double, h.machine, h.console]

/-- A statement may be taken to have more jumps than it has. -/
theorem ends.subset {D : Discipline} {w : D.World} {js js' : List Jump} {c : Completion}
    (h : D.ends js w c) (hjs : js ⊆ js') : D.ends js' w c := by
  cases c with
  | normal value => exact h
  | ret value => exact ⟨h.1, hjs h.2⟩
  | brk => exact hjs h
  | cont => exact hjs h

namespace Lawful

variable {D : Discipline} (law : D.Lawful) {fp : Footprint} {w : D.World} {α β : Type}
include law

theorem values_mono {w' : D.World} {values : List Value} (hw : D.reaches fp w w')
    (h : ∀ v ∈ values, D.value w v) : ∀ v ∈ values, D.value w' v :=
  fun v hv => law.value_mono hw (h v hv)

theorem property_mono {w' : D.World} {p : Property} (hw : D.reaches fp w w')
    (h : D.property w p) : D.property w' p := by
  cases p with
  | data value _ => exact law.value_mono hw h
  | accessor getter setter => exact ⟨law.slot_mono hw h.1, law.slot_mono hw h.2⟩

theorem own_shown {o : ObjectId} {key : String} {p : Property}
    (h : ((D.machine w).object o).own? key = some p) : D.shown w p := by
  rw [Object.own?] at h
  split at h
  next q hq =>
    cases h
    exact law.shown_ok hq
  next => exact property.shown (law.entries_ok _ (Table.mem_of_get? h)) fun _ => law.slot_value

/-- An object under construction has no accessors but those of its table. -/
theorem own_target {o : ObjectId} {key : String} {p : Property} (ho : D.target w o)
    (h : ((D.machine w).object o).own? key = some p) : D.property w p := by
  rw [Object.own?] at h
  split at h
  next q hq =>
    cases h
    rcases law.target_shown with any | target
    · have shown := law.shown_ok hq
      cases p with
      | data value writable => exact shown value List.mem_cons_self
      | accessor getter setter =>
          have both := List.forall_mem_cons.mp shown
          exact ⟨any w getter both.1, any w setter (both.2 setter List.mem_cons_self)⟩
    · exact target w o key p ho hq
  next => exact law.entries_ok _ (Table.mem_of_get? h)

theorem callable_mono {w' : D.World} {c : Callable} (hw : D.reaches fp w w')
    (h : D.callable w c) : D.callable w' c := by
  cases c with
  | closure c => exact ⟨h.1, law.scope_mono hw h.2⟩
  | builtin b => exact h
  | host f => exact trivial

theorem ready_mono {w' : D.World} {s : ScopeId} {names : List String} (hw : D.reaches fp w w')
    (h : D.ready w s names) : D.ready w' s names :=
  fun name hn => law.sees_mono hw (h name hn)

theorem ends_mono {w' : D.World} {js : List Jump} {c : Completion} (hw : D.reaches fp w w')
    (h : D.ends js w c) : D.ends js w' c := by
  cases c with
  | normal value => exact law.value_mono hw h
  | ret value => exact ⟨law.value_mono hw h.1, h.2⟩
  | brk => exact h
  | cont => exact h

/-! ## Rules for composing actions -/

protected theorem pure {Q : D.World → α → Prop} {a : α} (h : Q w a) :
    D.Keeps fp w (pure a) (pure a) Q :=
  .value w a (law.refl fp w) rfl rfl h

theorem fail {Q : D.World → α → Prop} {f : Fault} (h : D.fault w f) :
    D.Keeps fp w (Eval.fail f) (Eval.fail f) Q :=
  .fault w f (law.refl fp w) rfl rfl h

/-- Two actions in a row. -/
protected theorem bind {P : D.World → α → Prop} {Q : D.World → β → Prop} {x y : Eval α}
    {f g : α → Eval β} (hx : D.Keeps fp w x y P)
    (hf : ∀ a w', D.reaches fp w w' → P w' a → D.Keeps fp w' (f a) (g a) Q) :
    D.Keeps fp w (x >>= f) (y >>= g) Q := by
  cases hx with
  | value w₁ a hr hl hd hp =>
      cases hf a w₁ hr hp with
      | value w₂ b hr' hl' hd' hq =>
          exact .value w₂ b (law.trans hr hr') ((Eval.bind_of_value hl).trans hl')
            ((Eval.bind_of_value hd).trans hd') hq
      | fault w₂ e hr' hl' hd' hq =>
          exact .fault w₂ e (law.trans hr hr') ((Eval.bind_of_value hl).trans hl')
            ((Eval.bind_of_value hd).trans hd') hq
      | exhausted w₂ hr' hl' may hd' =>
          exact .exhausted w₂ (law.trans hr hr') ((Eval.bind_of_value hl).trans hl') may
            fun step => (Eval.bind_of_value hd).trans (hd' step)
  | fault w₁ e hr hl hd he =>
      exact .fault w₁ e hr (Eval.bind_of_fault hl) (Eval.bind_of_fault hd) he
  | exhausted w₁ hr hl may hd =>
      exact .exhausted w₁ hr (Eval.bind_of_exhausted hl) may
        fun step => Eval.bind_of_exhausted (hd step)

end Lawful

namespace Keeps

variable {D : Discipline} {fp : Footprint} {w : D.World} {α : Type} {x y : Eval α}
  {Q : D.World → α → Prop}

theorem ite {c : Prop} [Decidable c] {x' y' : Eval α} (hx : c → D.Keeps fp w x y Q)
    (hx' : ¬c → D.Keeps fp w x' y' Q) :
    D.Keeps fp w (if c then x else x') (if c then y else y') Q := by
  by_cases h : c
  · rw [if_pos h, if_pos h]
    exact hx h
  · rw [if_neg h, if_neg h]
    exact hx' h

/-- Only what actions do on the machines of the world counts. -/
theorem congr {x' y' : Eval α} (hx : D.Keeps fp w x y Q)
    (left : x' (D.machine w) = x (D.machine w)) (right : y' (D.double w) = y (D.double w)) :
    D.Keeps fp w x' y' Q := by
  cases hx with
  | value w' a hr hl hd hq => exact .value w' a hr (left.trans hl) (right.trans hd) hq
  | fault w' f hr hl hd hf => exact .fault w' f hr (left.trans hl) (right.trans hd) hf
  | exhausted w' hr hl may hd =>
      exact .exhausted w' hr (left.trans hl) may fun step => right.trans (hd step)

/-- What an action ends with may be forgotten in part. -/
theorem post {Q' : D.World → α → Prop} (hx : D.Keeps fp w x y Q)
    (h : ∀ w' a, D.reaches fp w w' → Q w' a → Q' w' a) : D.Keeps fp w x y Q' := by
  cases hx with
  | value w' a hr hl hd hq => exact .value w' a hr hl hd (h w' a hr hq)
  | fault w' f hr hl hd hf => exact .fault w' f hr hl hd hf
  | exhausted w' hr hl may hd => exact .exhausted w' hr hl may hd

/-- An action may be taken to reach more worlds than it does. -/
theorem reach {fp' : Footprint} (hx : D.Keeps fp w x y Q)
    (h : ∀ w', D.reaches fp w w' → D.reaches fp' w w') : D.Keeps fp' w x y Q := by
  cases hx with
  | value w' a hr hl hd hq => exact .value w' a (h w' hr) hl hd hq
  | fault w' f hr hl hd hf => exact .fault w' f (h w' hr) hl hd hf
  | exhausted w' hr hl may hd => exact .exhausted w' (h w' hr) hl may hd

/-- The fault of an attempt is a value. -/
theorem attempt (hx : D.Keeps fp w x y Q) :
    D.Keeps fp w (Eval.attempt x) (Eval.attempt y) (D.attempted Q) := by
  cases hx with
  | value w' a hr hl hd hq =>
      exact .value w' (.ok a) hr (by rw [Eval.attempt, hl]) (by rw [Eval.attempt, hd]) hq
  | fault w' f hr hl hd hf =>
      exact .value w' (.error f) hr (by rw [Eval.attempt, hl]) (by rw [Eval.attempt, hd]) hf
  | exhausted w' hr hl may hd =>
      exact .exhausted w' hr (by rw [Eval.attempt, hl]) may
        fun step => by rw [Eval.attempt, hd step]

/-- However an action ends, it has reached a world. -/
theorem outcome (hx : D.Keeps fp w x y Q) :
    ∃ w', D.reaches fp w w' ∧ (x (D.machine w)).machine = D.machine w' := by
  cases hx with
  | value w' a hr hl _ _ => exact ⟨w', hr, hl ▸ rfl⟩
  | fault w' f hr hl _ _ => exact ⟨w', hr, hl ▸ rfl⟩
  | exhausted w' hr hl _ _ => exact ⟨w', hr, hl ▸ rfl⟩

/-- Where doubles differ in nothing, the companion ends as the action, unless that is exhausted out
of step. -/
theorem eq_companion (hx : D.Keeps fp w x y Q) (same : ∀ w, D.double w = D.machine w)
    (step : ∀ w', x (D.machine w) = .exhausted (D.machine w') → D.inStep w') :
    y (D.machine w) = x (D.machine w) := by
  cases hx with
  | value w' a _ left right _ => rw [left, ← same w, ← same w', right]
  | fault w' f _ left right _ => rw [left, ← same w, ← same w', right]
  | exhausted w' _ left _ right =>
      have ends := right (step w' left)
      rw [left, ← same w, ← same w', ends]

/-- A fault is met at a world that was reached. -/
theorem reached_fault (hx : D.Keeps fp w x y Q) {f : Fault} {m : Machine}
    (h : x (D.machine w) = .fault f m) : ∃ w', D.reaches fp w w' ∧ D.fault w' f := by
  cases hx with
  | value w' a _ hl _ _ => cases h.symm.trans hl
  | exhausted w' _ hl _ _ => cases h.symm.trans hl
  | fault w' f hr hl _ hf =>
      cases h.symm.trans hl
      exact ⟨w', hr, hf⟩

theorem of_fault (hx : D.Keeps fp w x y Q) {f : Fault} {m : Machine}
    (h : x (D.machine w) = .fault f m) : ∃ w', D.fault w' f := by
  obtain ⟨w', _, hf⟩ := hx.reached_fault h
  exact ⟨w', hf⟩

theorem ne_exhausted (hx : D.Keeps fp w x y Q) (h : ¬D.mayExhaust) (m : Machine) :
    x (D.machine w) ≠ .exhausted m := by
  intro he
  cases hx with
  | value w' a _ hl _ _ => cases he.symm.trans hl
  | fault w' f _ hl _ _ => cases he.symm.trans hl
  | exhausted w' _ hl may _ => exact h may

/-- A change that the world can follow. -/
theorem change {f : Machine → Machine} {a : α} (h : ∃ w', D.Follows fp w w' f ∧ Q w' a)
    (left : x (D.machine w) = .value a (f (D.machine w)))
    (right : y (D.double w) = .value a { f (D.machine w) with console := D.console w }) :
    D.Keeps fp w x y Q := by
  obtain ⟨w', follows, hq⟩ := h
  refine .value w' a follows.reaches ?_ ?_ hq
  · rw [left, follows.machine]
  · rw [right, double, follows.machine, follows.console]

end Keeps

namespace Lawful

variable {D : Discipline} (law : D.Lawful) {w : D.World} {α : Type} {x y : Eval α}
  {Q : D.World → α → Prop}
include law

/-- An action that changes nothing it found fits every footprint. -/
theorem widen {fp : Footprint} (hx : D.Keeps .nothing w x y Q) : D.Keeps fp w x y Q :=
  hx.reach fun _ h => law.widenScope (law.widenTarget h)

/-- A scope that did not exist is no footprint. -/
theorem forgetScope {fp : Footprint} {s : ScopeId} (hs : (D.machine w).scopes.size ≤ s.index)
    (hx : D.Keeps ⟨some s, fp.target⟩ w x y Q) : D.Keeps fp w x y Q :=
  hx.reach fun _ h => law.widenScope (law.dropScope hs h)

/-- An object that did not exist is no footprint. -/
theorem forgetTarget {fp : Footprint} {o : ObjectId}
    (ho : (D.machine w).objects.size ≤ o.index)
    (hx : D.Keeps ⟨fp.scope, some o⟩ w x y Q) : D.Keeps fp w x y Q :=
  hx.reach fun _ h => law.widenTarget (law.dropTarget ho h)

end Lawful

/-! ## Disciplines that ask little -/

/-- Asks nothing of values and scopes, and lets actions be exhausted. -/
structure Lenient : Prop where
  value : ∀ w v, D.value w v
  scope : ∀ w s, D.scope w s
  builtin : ∀ b, D.builtin b
  fits : ∀ n, D.fits n
  room : ∀ k w n, D.room k w n
  sees : ∀ w s name, D.sees w s name
  mayExhaust : D.mayExhaust

/-- Asks nothing of faults either. -/
structure Undemanding : Prop extends D.Lenient where
  fault : ∀ w f, D.fault w f

/-- Asks nothing of trees and functions either. -/
structure Carefree : Prop extends D.Undemanding where
  slot : ∀ w v, D.slot w v
  checks : D.checks = .anything

/-- The laws about trees, functions and accessors. -/
structure Slots : Prop where
  mono : ∀ {fp w w' v}, D.reaches fp w w' → D.slot w v → D.slot w' v
  undefined : ∀ w, D.slot w .undefined
  callable : ∀ {w v}, (D.machine w).isCallable v = true → D.slot w v
  accessors : (∀ w v, D.value w v → D.slot w v) ∨
    ∀ e : Expr, D.checks.expr e = true → e.accessorsAreFunctions = true
  target_shown : (∀ w v, D.value w v → D.slot w v) ∨
    ∀ w o key p, D.target w o → ((D.machine w).object o).kind.property? key = some p →
      D.property w p
  entries_ok : ∀ {w o}, ∀ entry ∈ ((D.machine w).object o).properties.entries,
    D.property w entry.2
  callable_ok : ∀ {w v c}, (D.machine w).callable? v = some c → D.callable w c

/-- The laws about worlds and what they follow. -/
structure Changes : Prop where
  refl : ∀ fp w, D.reaches fp w w
  trans : ∀ {fp u v w}, D.reaches fp u v → D.reaches fp v w → D.reaches fp u w
  widenScope : ∀ {s t w w'}, D.reaches ⟨none, t⟩ w w' → D.reaches ⟨s, t⟩ w w'
  widenTarget : ∀ {s t w w'}, D.reaches ⟨s, none⟩ w w' → D.reaches ⟨s, t⟩ w w'
  dropScope : ∀ {s t w w'}, (D.machine w).scopes.size ≤ s.index →
    D.reaches ⟨some s, t⟩ w w' → D.reaches ⟨none, t⟩ w w'
  dropTarget : ∀ {s o w w'}, (D.machine w).objects.size ≤ o.index →
    D.reaches ⟨s, some o⟩ w w' → D.reaches ⟨s, none⟩ w w'
  target_mono : ∀ {fp w w' o}, D.reaches fp w w' → D.target w o → D.target w' o
  allocates : ∀ {w o}, D.object w o → ∃ w',
    D.Follows .nothing w w' (fun m => { m with objects := m.objects.push o }) ∧
      (∀ c, o.kind = .function c → D.slot w' (.object ⟨(D.machine w).objects.size⟩)) ∧
      (o.kind = .ordinary → D.target w' ⟨(D.machine w).objects.size⟩)
  defines : ∀ {w o p} key, D.property w p → ∃ w',
    D.Follows .nothing w w' (fun m => m.modifyObject o fun object => object.define key p)
  erases : ∀ {w o} key, ∃ w',
    D.Follows .nothing w w' (fun m => m.modifyObject o fun object => object.erase key)
  boxes : ∀ {w o p}, D.target w o → p.isNullish = false → ∃ w',
    D.Follows ⟨none, some o⟩ w w'
      (fun m => m.modifyObject o fun object => { object with kind := .boxed p })
  opensScope : ∀ {w v parent}, ∃ w', D.Follows .nothing w w'
    (fun m => { m with scopes := m.scopes.push ⟨some parent, v, .empty⟩ })
  declares : ∀ {w s v} name isMutable, ∃ w',
    D.Follows ⟨some s, none⟩ w w' (fun m => m.modifyScope s fun scope =>
      { scope with bindings := scope.bindings.insert name ⟨v, isMutable⟩ })
  assigns : ∀ {w s v name b}, ((D.machine w).scope s).bindings.get? name = some b →
    b.isMutable = true → ∃ w',
      D.Follows .nothing w w' (fun m => m.modifyScope s fun scope =>
        { scope with bindings := scope.bindings.insert name ⟨v, true⟩ })
  setsClock : ∀ w clock, ∃ w', D.Follows .nothing w w' fun m => { m with clock := clock }
  enters : ∀ {w} frame, D.mayEnter w → ∃ w₁,
    D.machine w₁ = { D.machine w with stack := frame :: (D.machine w).stack } ∧
    D.console w₁ = D.console w ∧ (∀ o, D.target w o → D.target w₁ o) ∧
    ∀ fp w₂, D.reaches fp w₁ w₂ → ∃ w₃, D.reaches fp w w₃ ∧
      D.machine w₃ = { D.machine w₂ with stack := (D.machine w₂).stack.tail } ∧
      D.console w₃ = D.console w₂ ∧ (D.inStep w₃ → D.inStep w₂)

/-- Where little is asked, what is left are the laws about worlds. -/
theorem Undemanding.lawful {D : Discipline} (free : D.Undemanding) (slots : D.Slots)
    (changes : D.Changes) : D.Lawful where
  refl := changes.refl
  trans := changes.trans
  widenScope := changes.widenScope
  widenTarget := changes.widenTarget
  dropScope := changes.dropScope
  dropTarget := changes.dropTarget
  value_mono _ _ := free.value _ _
  slot_mono := slots.mono
  scope_mono _ _ := free.scope _ _
  target_mono := changes.target_mono
  fault_mono _ _ := free.fault _ _
  room_mono _ _ := free.room _ _ _
  sees_mono _ _ := free.sees _ _ _
  primitive_ok _ _ := free.value _ _
  intrinsic_ok _ _ _ := free.value _ _
  slot_value _ := free.value _ _
  slot_undefined := slots.undefined
  slot_callable _ h := slots.callable h
  target_value _ := free.value _ _
  room_sub _ _ := free.room _ _ _
  room_le _ _ := free.room _ _ _
  room_fits _ := free.fits _
  room_zero := .inl free.mayExhaust
  fault_typeError _ _ := free.fault _ _
  fault_referenceError _ _ := free.fault _ _
  fault_rangeError _ _ := free.fault _ _
  fault_thrown _ _ := free.fault _ _
  thrown_value _ := free.value _ _
  thrown_text _ _ := free.fault _ _
  fault_internal := .inl fun _ _ => free.fault _ _
  fault_functionConstructor _ _ := free.fault _ _
  loops := .inl free.mayExhaust
  accessors := slots.accessors
  receiver_ok _ := free.value _ _
  binding_ok _ := free.value _ _
  shown_ok _ _ _ := free.value _ _
  target_shown := slots.target_shown
  entries_ok := slots.entries_ok
  prototype_ok _ := free.value _ _
  callable_ok := slots.callable_ok
  scopes_end := .inl free.mayExhaust
  prototypes_end := .inl free.mayExhaust
  allocates ho := by
    obtain ⟨w', follows, slot, target⟩ := changes.allocates ho
    exact ⟨w', follows, free.value _ _, slot, target⟩
  defines key _ hp := changes.defines key hp
  erases key _ := changes.erases key
  boxes := changes.boxes
  opensScope _ _ := by
    obtain ⟨w', follows⟩ := changes.opensScope
    exact ⟨w', follows, free.scope _ _⟩
  declares name isMutable _ _ := changes.declares name isMutable
  assigns hb hm _ := changes.assigns hb hm
  setsClock := changes.setsClock
  sees_here _ := free.sees _ _ _
  sees_opened _ _ := free.sees _ _ _
  sees_declared _ _ := free.sees _ _ _
  enters frame may _ := by
    obtain ⟨w₁, machine, console, target, leave⟩ := changes.enters frame may
    refine ⟨w₁, ⟨machine, console, fun _ _ => free.value _ _, fun _ _ => free.scope _ _, target,
      free.room _ _ _, fun _ _ => free.room _ _ _⟩, fun fp w₂ hr => ?_⟩
    obtain ⟨w₃, reaches, machine', console', inStep⟩ := leave fp w₂ hr
    exact ⟨w₃, reaches, machine', console', fun _ _ => free.value _ _, fun _ _ => free.fault _ _,
      inStep⟩

namespace Carefree

variable {D : Discipline} (free : D.Carefree) {w : D.World}
include free

theorem callable (c : Callable) : D.callable w c := by
  cases c with
  | closure c =>
      have passes : c.code.all D.checks = true := free.checks ▸ c.code.all_anything
      exact ⟨⟨passes, free.fits _⟩, free.scope w _⟩
  | builtin b => exact free.builtin b
  | host f => exact trivial

theorem slots : D.Slots where
  mono _ _ := free.slot _ _
  undefined _ := free.slot _ _
  callable _ := free.slot _ _
  accessors := .inl fun _ _ _ => free.slot _ _
  target_shown := .inl fun _ _ _ => free.slot _ _
  entries_ok _ _ := property_of_values (free.value _) (free.slot _) _
  callable_ok _ := free.callable _

theorem lawful (changes : D.Changes) : D.Lawful := free.toUndemanding.lawful free.slots changes

end Carefree

/-! ## Watching faults -/

/-- The same discipline with another condition on faults. -/
def watching (fault : D.World → Fault → Prop) : Discipline := { D with fault := fault }

/-- The laws about a condition on faults. -/
structure FaultLaws (fault : D.World → Fault → Prop) : Prop where
  mono : ∀ {fp w w' f}, D.reaches fp w w' → fault w f → fault w' f
  typeError : ∀ w message, fault w (.typeError message)
  referenceError : ∀ w message, fault w (.referenceError message)
  rangeError : ∀ w message, fault w (.rangeError message)
  thrown : ∀ {w v} text, D.value w v → fault w (.thrown v text (D.machine w).stack)
  value : ∀ {w v text trace}, fault w (.thrown v text trace) → D.value w v
  text : ∀ {w v text trace} text', fault w (.thrown v text trace) → fault w (.thrown v text' trace)
  internal : ∀ w message, fault w (.internal message (D.machine w).stack)
  leaves : ∀ {w w' f},
    D.machine w' = { D.machine w with stack := (D.machine w).stack.tail } → fault w f → fault w' f

section Watching

variable {D : Discipline} {F : D.World → Fault → Prop} {fp : Footprint} {w w' : D.World}

theorem Follows.watching {change : Machine → Machine} (h : D.Follows fp w w' change) :
    (D.watching F).Follows fp w w' change :=
  ⟨h.reaches, h.machine, h.console⟩

theorem Follows.of_watching {change : Machine → Machine}
    (h : (D.watching F).Follows fp w w' change) : D.Follows fp w w' change :=
  ⟨h.reaches, h.machine, h.console⟩

theorem callable_watching {c : Callable} : (D.watching F).callable w c ↔ D.callable w c := by
  cases c with
  | closure c => exact Iff.rfl
  | builtin b => exact Iff.rfl
  | host f => exact Iff.rfl

theorem property_watching {p : Property} : (D.watching F).property w p ↔ D.property w p := by
  cases p with
  | data value writable => exact Iff.rfl
  | accessor getter setter => exact Iff.rfl

theorem object.of_watching {o : Object} (h : (D.watching F).object w o) : D.object w o where
  prototype := h.prototype
  properties entry he := property_watching.mp (h.properties entry he)
  kind := by
    obtain ⟨prototype, properties, kind⟩ := o
    cases kind with
    | ordinary => exact trivial
    | function c => exact ⟨h.kind.1, callable_watching.mp h.kind.2⟩
    | boxed p => exact h.kind
    | host table => exact h.kind
  keys := h.keys

/-- A lawful discipline stays lawful when it watches faults. -/
theorem Lawful.watching (law : D.Lawful) (faults : D.FaultLaws F) : (D.watching F).Lawful :=
  { law with
    fault_mono := faults.mono
    fault_typeError := faults.typeError
    fault_referenceError := faults.referenceError
    fault_rangeError := faults.rangeError
    fault_thrown := faults.thrown
    thrown_value := faults.value
    thrown_text := faults.text
    fault_internal := .inl faults.internal
    fault_functionConstructor := fun w _ => faults.internal w _
    target_shown := law.target_shown.imp_right fun target w o key p ho hp =>
      property_watching.mpr (target w o key p ho hp)
    entries_ok := fun entry he => property_watching.mpr (law.entries_ok entry he)
    callable_ok := fun hc => callable_watching.mpr (law.callable_ok hc)
    allocates := fun ho => by
      obtain ⟨w', follows, fresh⟩ := law.allocates ho.of_watching
      exact ⟨w', follows.watching, fresh⟩
    defines := fun key ho hp => by
      obtain ⟨w', follows⟩ := law.defines key ho (property_watching.mp hp)
      exact ⟨w', follows.watching⟩
    erases := fun key ho => by
      obtain ⟨w', follows⟩ := law.erases key ho
      exact ⟨w', follows.watching⟩
    boxes := fun ho hp => by
      obtain ⟨w', follows⟩ := law.boxes ho hp
      exact ⟨w', follows.watching⟩
    opensScope := fun hs hv => by
      obtain ⟨w', follows, scope⟩ := law.opensScope hs hv
      exact ⟨w', follows.watching, scope⟩
    declares := fun name isMutable hs hv => by
      obtain ⟨w', follows⟩ := law.declares name isMutable hs hv
      exact ⟨w', follows.watching⟩
    assigns := fun hb hm hv => by
      obtain ⟨w', follows⟩ := law.assigns hb hm hv
      exact ⟨w', follows.watching⟩
    setsClock := fun w clock => by
      obtain ⟨w', follows⟩ := law.setsClock w clock
      exact ⟨w', follows.watching⟩
    sees_opened := fun sees follows => law.sees_opened sees follows.of_watching
    sees_declared := fun hs follows => law.sees_declared hs follows.of_watching
    enters := fun frame may room => by
      obtain ⟨w₁, enters, leave⟩ := law.enters frame may room
      refine ⟨w₁, ⟨enters.machine, enters.console, enters.value, enters.scope, enters.target,
        enters.calls, enters.room⟩, fun fp w₂ hr => ?_⟩
      obtain ⟨w₃, returns⟩ := leave fp w₂ hr
      exact ⟨w₃, returns.reaches, returns.machine, returns.console, returns.value,
        fun _ => faults.leaves returns.machine, returns.inStep⟩ }

end Watching

/-! ## Parts of trees -/

namespace Fits

variable {D : Discipline} {k : Nat} {w : D.World} {passes passes' : Bool} {size size' : Nat}

/-- A child of a node can be a task of its own. -/
theorem sub (law : D.Lawful) (h : D.Fits (k + 1) w passes size)
    (hp : passes = true → passes' = true) (hs : size' < size) : D.Fits k w passes' size' :=
  ⟨hp h.passes, law.room_sub h.room hs⟩

/-- A part of a task can be done on the way. -/
theorem part (law : D.Lawful) (h : D.Fits k w passes size)
    (hp : passes = true → passes' = true) (hs : size' ≤ size) : D.Fits k w passes' size' :=
  ⟨hp h.passes, law.room_le h.room hs⟩

theorem mono (law : D.Lawful) {fp : Footprint} {w' : D.World} (h : D.Fits k w passes size)
    (hw : D.reaches fp w w') : D.Fits k w' passes size :=
  ⟨h.passes, law.room_mono hw h.room⟩

/-- The object and the key of a member access. -/
theorem access (law : D.Lawful) {e e' : Expr} {computed : Bool}
    (h : D.Fits k w ((Expr.access e e' computed).all D.checks) size) :
    D.Fits k w (e.all D.checks && (!computed || e'.all D.checks)) size :=
  h.part law (by simp +contextual) (Nat.le_refl size)

/-- Where there is room for a tree there is room for a call. -/
theorem calls (law : D.Lawful) (h : D.Fits k w passes size) : D.room k w 0 :=
  law.room_le h.room (Nat.zero_le size)

theorem code (law : D.Lawful) {f : FunctionCode}
    (h : D.Fits k w (f.all D.checks) (sizeOf f)) : D.code f :=
  ⟨h.passes, law.room_fits h.room⟩

end Fits

/-! ## Tasks and runners -/

/-- What a task may be started with. -/
def Admits (fuel : Nat) (w : D.World) : {α : Type} → Task α → Prop
  | _, .eval e s => D.Fits fuel w (e.all D.checks) (sizeOf e) ∧ D.scope w s
  | _, .exec statement s =>
      D.Fits fuel w (statement.all D.checks) (sizeOf statement) ∧ D.scope w s ∧
        D.ready w s statement.hoisted
  | _, .call callee receiver arguments target =>
      D.value w callee ∧ D.value w receiver ∧ (∀ v ∈ arguments, D.value w v) ∧
        (∀ o, target = some o → D.target w o) ∧ D.room fuel w 0

/-- What a task may end with. -/
def Answers : {α : Type} → Task α → D.World → α → Prop
  | _, .eval e _, w, v => D.value w v ∧ (e.isFunction = true → D.slot w v)
  | _, .exec statement _, w, completion => D.ends statement.jumps w completion
  | _, .call .., w, v => D.value w v

end Discipline

/-- What a task may change of what it finds. -/
def Task.footprint : {α : Type} → Task α → Footprint
  | _, .eval .. => .nothing
  | _, .exec statement s => ⟨if statement.declares then some s else none, none⟩
  | _, .call _ _ _ target => ⟨none, target⟩

/-- Two settings that a discipline does not tell apart, but perhaps by their limits on calls. -/
structure Discipline.AgreeInside (D : Discipline) (settings settings' : Settings) : Prop where
  checkTimeout : ∀ w, D.Keeps .nothing w (Eval.checkTimeout settings)
    (Eval.checkTimeout settings') fun _ _ => True
  print : ∀ w level text, D.Keeps .nothing w (Eval.print settings level text)
    (Eval.print settings' level text) fun _ _ => True

/-- Two settings that a discipline does not tell apart. -/
structure Discipline.Agree (D : Discipline) (settings settings' : Settings) : Prop extends
    D.AgreeInside settings settings' where
  checkDepth : ∀ w, D.Keeps .nothing w (Eval.checkDepth settings)
    (Eval.checkDepth settings') fun w' _ => D.mayEnter w'

/-- Two runners keep a discipline on all tasks that have room in `fuel`. -/
structure Discipline.Matches (D : Discipline) (fuel : Nat) (r r' : Runner) : Prop where
  law : D.Lawful
  agree : D.AgreeInside r.settings r'.settings
  run : ∀ {α : Type} (task : Task α) (w : D.World), D.Admits fuel w task →
    D.Keeps task.footprint w (r.run task) (r'.run task) (D.Answers task)
  turns : r.turns ≤ r'.turns
  turns_inStep : (∃ w, D.inStep w) → r.turns = r'.turns

end ScriptTree
