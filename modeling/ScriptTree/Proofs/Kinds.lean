import ScriptTree.Proofs.Links

/-!
# The kinds of objects

An object is made with its kind and keeps it: only the constructors of wrappers give an object
another one, and only the object under construction.  So whatever an operation does, the objects it
found have the kinds they had, but for the one that a call was told to construct
(`Machine.KindsKept`).

All functions are made with the prototype of functions, and what a wrapper boxes is never null or
undefined.  Neither prototypes nor kinds change later, so this is true of every machine that comes
about by evaluation (`object_kinds_stable`).
-/

namespace ScriptTree

/-! ## Sound kinds -/

/-- The object has the prototype of functions if it is one, and boxes no null or undefined. -/
structure Object.KindSound (o : Object) : Prop where
  function : ∀ c, o.kind = .function c → o.prototype = some .functionPrototype
  boxed : ∀ p, o.kind = .boxed p → p.isNullish = false

theorem Object.KindSound.ofPrototype (prototype : Option ObjectId) :
    (Object.ofPrototype prototype).KindSound := by
  constructor
  · intro c hc
    cases hc
  · intro p hp
    cases hp

/-- Boxing a primitive makes any object sound. -/
theorem Object.KindSound.box (o : Object) {p : Primitive} (h : p.isNullish = false) :
    Object.KindSound { o with kind := .boxed p } := by
  constructor
  · intro c hc
    cases hc
  · intro q hq
    cases hq
    exact h

namespace Machine

/-- All kinds are sound. -/
def KindsSound (m : Machine) : Prop := ∀ o, (m.object o).KindSound

/-- What can be called are the functions. -/
theorem KindsSound.isCallable_iff {m : Machine} (h : m.KindsSound) (o : ObjectId) :
    m.isCallable (.object o) = true ↔ ∃ c, (m.object o).kind = .function c := by
  constructor
  · intro callable
    obtain ⟨c, hc⟩ := Option.isSome_iff_exists.mp callable
    exact ⟨c, (callable?_object.mp hc).2⟩
  · rintro ⟨c, kind⟩
    have shape := (h o).function c kind
    exact Option.isSome_iff_exists.mpr ⟨c, callable?_object.mpr ⟨shape, kind⟩⟩

/-! ## Machines that come from one another -/

/-- The objects of a machine keep their kinds, all but the target, and kinds stay sound. -/
structure KindsKept (base : Machine) (target : Option ObjectId) (m : Machine) : Prop where
  size : base.objects.size ≤ m.objects.size
  kind : ∀ o : ObjectId, o.index < base.objects.size → target ≠ some o →
    (m.object o).kind = (base.object o).kind
  sound : base.KindsSound → m.KindsSound

namespace KindsKept

variable {base m m' : Machine} {target : Option ObjectId}

theorem refl : base.KindsKept target base :=
  ⟨Nat.le_refl _, fun _ _ _ => rfl, fun h => h⟩

/-- Only objects count. -/
theorem of_objects (h : base.KindsKept target m) (same : m'.objects = m.objects) :
    base.KindsKept target m' := by
  have object (o : ObjectId) : m'.object o = m.object o := by
    rw [Machine.object, Machine.object, same]
  constructor
  · rw [same]
    exact h.size
  · intro o ho other
    rw [object]
    exact h.kind o ho other
  · intro sound o
    rw [object]
    exact h.sound sound o

theorem push (h : base.KindsKept target m) {o : Object} (sound : o.KindSound) :
    base.KindsKept target { m with objects := m.objects.push o } := by
  have grown := h.size
  constructor
  · exact Nat.le_trans grown (by simp)
  · intro i hi other
    rw [object_push, if_neg (Nat.ne_of_lt (Nat.lt_of_lt_of_le hi grown))]
    exact h.kind i hi other
  · intro soundBase i
    rw [object_push]
    split
    · exact sound
    · exact h.sound soundBase i

/-- One object changes.  If it is of `base` and not the target, its kind has to stay. -/
theorem modify (h : base.KindsKept target m) (o : ObjectId) (f : Object → Object)
    (kind : o.index < base.objects.size → target ≠ some o →
      (f (m.object o)).kind = (m.object o).kind)
    (sound : (m.object o).KindSound → (f (m.object o)).KindSound) :
    base.KindsKept target (m.modifyObject o f) := by
  constructor
  · simpa [modifyObject] using h.size
  · intro i hi other
    rw [object_modify]
    split
    next same =>
      obtain ⟨rfl, _⟩ := same
      rw [kind hi other]
      exact h.kind i hi other
    next => exact h.kind i hi other
  · intro soundBase i
    rw [object_modify]
    split
    · exact sound (h.sound soundBase o)
    · exact h.sound soundBase i

/-- A change of the table only. -/
theorem modifyTable (h : base.KindsKept target m) (o : ObjectId) (f : Object → Object)
    (prototype : ∀ x, (f x).prototype = x.prototype) (kind : ∀ x, (f x).kind = x.kind) :
    base.KindsKept target (m.modifyObject o f) := by
  apply h.modify o f
  · intro _ _
    exact kind _
  · intro sound
    constructor
    · intro c hc
      rw [prototype]
      rw [kind] at hc
      exact sound.function c hc
    · intro p hp
      rw [kind] at hp
      exact sound.boxed p hp

end KindsKept

end Machine

/-! ## The discipline -/

namespace Discipline

/-- The kinds of `base` are kept, all but that of one target.  Other objects under construction are
new. -/
def kinds (base : Machine) (target : Option ObjectId) : Discipline where
  World := { m : Machine // base.KindsKept target m }
  machine := Subtype.val
  console w := w.val.console
  reaches _ _ _ := True
  value _ _ := True
  slot _ _ := True
  scope _ _ := True
  target _ o := base.objects.size ≤ o.index ∨ target = some o
  builtin _ := True
  fault _ _ := True
  checks := .anything
  fits _ := True
  room _ _ _ := True
  mayEnter _ := True
  mayExhaust := True
  inStep _ := True

variable {base : Machine} {target : Option ObjectId} {w : (kinds base target).World}

theorem kinds_carefree : (kinds base target).Carefree where
  value _ _ := trivial
  scope _ _ := trivial
  builtin _ := trivial
  fault _ _ := trivial
  fits _ := trivial
  room _ _ _ := trivial
  sees _ _ _ := trivial
  mayExhaust := trivial
  slot _ _ := trivial
  checks := rfl

theorem object.kindSound {o : Object} (h : (kinds base target).object w o) : o.KindSound := by
  have kind := h.kind
  constructor
  · intro c hc
    rw [hc] at kind
    exact kind.1
  · intro p hp
    rw [hp] at kind
    exact kind

theorem kinds_follows {fp : Footprint} (change : Machine → Machine)
    (kept : base.KindsKept target (change w.val))
    (console : (change w.val).console = w.val.console) :
    ∃ w', (kinds base target).Follows fp w w' change :=
  ⟨⟨change w.val, kept⟩, trivial, rfl, console⟩

theorem kinds_changes : (kinds base target).Changes where
  refl _ _ := trivial
  trans _ _ := trivial
  widenScope _ := trivial
  widenTarget _ := trivial
  dropScope _ _ := trivial
  dropTarget _ _ := trivial
  target_mono _ ho := ho
  allocates {w o} ho := by
    obtain ⟨w', follows⟩ := kinds_follows (fun m => { m with objects := m.objects.push o })
      (w.property.push ho.kindSound) rfl
    exact ⟨w', follows, fun _ _ => trivial, fun _ => .inl w.property.size⟩
  defines {w o p} key _ := kinds_follows (·.modifyObject o fun object => object.define key p)
    (w.property.modifyTable o _ (fun _ => rfl) fun _ => rfl) rfl
  erases {w o} key := kinds_follows (·.modifyObject o fun object => object.erase key)
    (w.property.modifyTable o _ (fun _ => rfl) fun _ => rfl) rfl
  boxes {w o p} ho hp := by
    refine kinds_follows (·.modifyObject o fun object => { object with kind := .boxed p }) ?_ rfl
    apply w.property.modify o
    · -- an object of `base` is under construction only if it is the target
      intro old other
      rcases ho with new | same
      · exact absurd old (Nat.not_lt.mpr new)
      · exact absurd same other
    · intro _
      exact .box _ hp
  opensScope {w _ _} := kinds_follows _ (w.property.of_objects rfl) rfl
  declares {w _ _} _ _ := kinds_follows _ (w.property.of_objects rfl) rfl
  assigns {w _ _ _ _} _ _ := kinds_follows _ (w.property.of_objects rfl) rfl
  setsClock w _ := kinds_follows _ (w.property.of_objects rfl) rfl
  enters {w} frame _ := by
    refine ⟨⟨{ w.val with stack := frame :: w.val.stack }, w.property.of_objects rfl⟩, rfl, rfl,
      fun _ h => h, ?_⟩
    intro fp w₂ _
    exact ⟨⟨{ w₂.val with stack := w₂.val.stack.tail }, w₂.property.of_objects rfl⟩, trivial, rfl,
      rfl, fun _ => trivial⟩

theorem kinds_lawful : (kinds base target).Lawful := kinds_carefree.lawful kinds_changes

theorem kinds_agree (settings : Settings) : (kinds base target).Agree settings settings :=
  kinds_lawful.agree settings (fun _ _ _ => trivial) (fun _ _ => trivial) fun w line =>
    ⟨⟨{ w.val with console := w.val.console.push line }, w.property.of_objects rfl⟩, trivial, rfl,
      rfl⟩

end Discipline

/-! ## Operations -/

namespace Operation

variable {α : Type} (op : Operation α) (m : Machine) (settings : Settings) (fuel : Nat)

/-- An operation changes the kind of no object that it finds, but of the one it has to construct. -/
theorem perform_kinds :
    m.KindsKept op.footprint.target (op.perform (settings.runner fuel) m).machine := by
  obtain ⟨w', _, ends⟩ := Discipline.kinds_lawful.perform (Discipline.kinds_agree settings)
    fuel op (w := ⟨m, .refl⟩)
    (Discipline.kinds_carefree.requests fun _ target => .inr target)
  have left : (op.perform (settings.runner fuel) m).machine = w'.val := ends
  rw [left]
  exact w'.property

/-- Nor does it on the way, at the start of any task. -/
theorem perform_kinds_guarded {test : Machine → Bool}
    (passes : ∀ m', m.KindsKept op.footprint.target m' → test m' = true)
    (alarm : (α : Type) → Eval α) :
    op.perform (settings.guardedRunner test alarm fuel) m =
      op.perform (settings.runner fuel) m :=
  Discipline.kinds_lawful.perform_guarded (Discipline.kinds_agree settings) (fun _ => rfl)
    (fun _ => trivial) (fun w => passes w.val w.property) alarm (w := ⟨m, .refl⟩)
    (Discipline.kinds_carefree.requests fun _ target => .inr target)

end Operation

/-! ## Machines that come about by evaluation -/

/-- The machine has come about from the one with nothing but the library, by operations and by what
an embedder adds: global scopes, and objects of sound kinds. -/
inductive Machine.Evolved : Machine → Prop where
  | library : Evolved Realm.machine
  | openGlobal {m : Machine} (h : Evolved m) (setup : GlobalSetup) :
      Evolved (Eval.openGlobal setup m).machine
  | allocate {m : Machine} (h : Evolved m) (o : Object) (sound : o.KindSound) :
      Evolved (Eval.allocate o m).machine
  | perform {m : Machine} (h : Evolved m) (settings : Settings) (fuel : Nat) {α : Type}
      (op : Operation α) : Evolved (op.perform (settings.runner fuel) m).machine

theorem Realm.prototypes_kindsSound :
    Machine.KindsSound { Machine.empty with objects := prototypes } := by
  intro o
  obtain ⟨p, he, _⟩ := object_prototypes o.index
  rw [Machine.object, he]
  exact .ofPrototype p

theorem Realm.machine_kindsSound : machine.KindsSound := by
  obtain ⟨w, hw, _⟩ := Discipline.kinds_lawful.realm (fun _ => trivial)
    (D := Discipline.kinds { Machine.empty with objects := prototypes } none) (w := ⟨_, .refl⟩) rfl
  have left : machine = w.val := hw.symm
  rw [left]
  exact w.property.sound prototypes_kindsSound

theorem Machine.Evolved.kindsSound {m : Machine} (h : m.Evolved) : m.KindsSound := by
  induction h with
  | library => exact Realm.machine_kindsSound
  | @openGlobal m _ setup ih =>
      have same : m.KindsKept none m := .refl
      exact (same.of_objects rfl).sound ih
  | @allocate m _ o sound ih =>
      have same : m.KindsKept none m := .refl
      exact (same.push sound).sound ih
  | @perform m _ settings fuel α op ih => exact (op.perform_kinds m settings fuel).sound ih

theorem Primitive.of_isNullish {p : Primitive} (h : p.isNullish = false) :
    (∃ b, p = .bool b) ∨ (∃ x, p = .number x) ∨ ∃ s, p = .string s := by
  cases p with
  | undefined => cases h
  | null => cases h
  | bool b => exact .inl ⟨b, rfl⟩
  | number x => exact .inr (.inl ⟨x, rfl⟩)
  | string s => exact .inr (.inr ⟨s, rfl⟩)

/-- On every machine that comes about by evaluation, functions have the prototype of functions, so
they are what can be called, and boxes hold booleans, numbers and strings.  And on every machine, an
operation leaves the objects that it finds with the kinds they have, but for the one that a call has
to construct; and no task on the way starts on a machine where it is otherwise. -/
theorem object_kinds_stable :
    (∀ m : Machine, m.Evolved →
      (∀ o c, (m.object o).kind = .function c →
        (m.object o).prototype = some .functionPrototype) ∧
      (∀ o, m.isCallable (.object o) = true ↔ ∃ c, (m.object o).kind = .function c) ∧
      ∀ o p, (m.object o).kind = .boxed p →
        (∃ b, p = .bool b) ∨ (∃ x, p = .number x) ∨ ∃ s, p = .string s) ∧
    ∀ (settings : Settings) (fuel : Nat) (α : Type) (op : Operation α) (m : Machine),
      (∀ o : ObjectId, o.index < m.objects.size → op.footprint.target ≠ some o →
        ((op.perform (settings.runner fuel) m).machine.object o).kind = (m.object o).kind) ∧
      ∀ (test : Machine → Bool) (alarm : (α : Type) → Eval α),
        (∀ m', m.KindsKept op.footprint.target m' → test m' = true) →
          op.perform (settings.guardedRunner test alarm fuel) m =
            op.perform (settings.runner fuel) m := by
  constructor
  · intro m evolved
    have sound := evolved.kindsSound
    refine ⟨fun o => (sound o).function, sound.isCallable_iff, ?_⟩
    intro o p kind
    exact Primitive.of_isNullish ((sound o).boxed p kind)
  · intro settings fuel α op m
    refine ⟨(op.perform_kinds m settings fuel).kind, ?_⟩
    intro test alarm passes
    exact op.perform_kinds_guarded m settings fuel passes alarm

/-- A machine with the function `String` and one more object. -/
def wrapperMachine : Machine :=
  { Machine.empty with
    objects := #[⟨some .functionPrototype, .empty, .function (.builtin .stringConstructor)⟩,
      .ofPrototype none] }

theorem object_kinds_stable_wrapper :
    let m := (Session.start .standard (pure ⟨.undefined, []⟩)).machine
    let op := Operation.call (.object ⟨0⟩) .undefined [.primitive (.bool true)] (some ⟨1⟩)
    let m' := (op.perform (Settings.standard.runner 3) wrapperMachine).machine
    m.Evolved ∧ (∀ o, m.isCallable (.object o) = true ↔ ∃ c, (m.object o).kind = .function c) ∧
      (m'.object ⟨0⟩).kind = .function (.builtin .stringConstructor) ∧
      (m'.object ⟨1⟩).kind = .boxed (.string "true") := by
  intro m op m'
  have evolved : m.Evolved := .openGlobal .library ⟨.undefined, []⟩
  have other : op.footprint.target ≠ some ⟨0⟩ := by simp [op, Operation.footprint]
  have kept := (object_kinds_stable.2 .standard 3 _ op wrapperMachine).1 ⟨0⟩ (by decide) other
  exact ⟨evolved, (object_kinds_stable.1 m evolved).2.1, kept, rfl⟩

end ScriptTree
