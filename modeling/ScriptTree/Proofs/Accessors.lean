import ScriptTree.Proofs.Links

/-!
# Getters and setters

What stands in an accessor of a table is undefined or a function.  Object literals put functions
there if they are written so, `Object.defineProperty` asks before it puts something there, and all
other ways of making a property make a value of it.  It stays so because functions stay functions
(`Machine.FunctionsKept`): an object under construction is none.

Only tables count.  A host object answers for its own keys, and may answer with anything.
-/

namespace ScriptTree

/-! ## Slots -/

/-- The nodes whose getters and setters are written as functions. -/
def Checks.accessors : Checks := ⟨Expr.accessorsAreFunctions, fun _ => true, fun _ => true⟩

/-- Whether every getter and setter of a program is written as a function. -/
def Program.accessorsAreFunctions (program : Program) : Bool := allStmts .accessors program.body

/-- Whether the getters and setters that a function makes are written as functions. -/
def Callable.accessorsAreFunctions : Callable → Bool
  | .closure c => c.code.all .accessors
  | .builtin _ | .host _ => true

/-- Neither a function nor an object of the embedder. -/
def ObjectKind.isPlain : ObjectKind → Bool
  | .ordinary | .boxed _ => true
  | .function _ | .host _ => false

/-- The value can stand in an accessor. -/
def Machine.Slot (m : Machine) (v : Value) : Prop :=
  v.isUndefined = true ∨ m.isCallable v = true

/-- What stands in the property can stand there. -/
def Property.SlotsIn (m : Machine) : Property → Prop
  | .data _ _ => True
  | .accessor getter setter => m.Slot getter ∧ m.Slot setter

/-- What stands in accessors can stand there, and functions make no others. -/
structure Machine.AccessorsSound (m : Machine) : Prop where
  slots : ∀ o, ∀ entry ∈ (m.object o).properties.entries, entry.2.SlotsIn m
  functions : m.Functions (·.accessorsAreFunctions = true)

/-! ## Functions stay functions -/

namespace Machine

/-- Objects keep their prototypes, and their kinds if they are not plain. -/
structure FunctionsKept (m m' : Machine) : Prop where
  size : m.objects.size ≤ m'.objects.size
  prototype : ∀ o : ObjectId, o.index < m.objects.size →
    (m'.object o).prototype = (m.object o).prototype
  kind : ∀ o : ObjectId, o.index < m.objects.size →
    (m'.object o).kind = (m.object o).kind ∨
      (m.object o).kind.isPlain = true ∧ (m'.object o).kind.isPlain = true

variable {m m' m'' : Machine}

namespace FunctionsKept

theorem of_objects (h : m'.objects = m.objects) : m.FunctionsKept m' := by
  have same (o : ObjectId) : m'.object o = m.object o := by rw [object, object, h]
  refine ⟨Nat.le_of_eq (congrArg Array.size h.symm), fun o _ => ?_, fun o _ => ?_⟩
  · rw [same]
  · rw [same]
    exact .inl rfl

theorem isPlain (h : m.FunctionsKept m') {o : ObjectId} (ho : o.index < m.objects.size)
    (plain : (m.object o).kind.isPlain = true) : (m'.object o).kind.isPlain = true := by
  rcases h.kind o ho with same | both
  · rw [same]
    exact plain
  · exact both.2

theorem trans (h : m.FunctionsKept m') (h' : m'.FunctionsKept m'') : m.FunctionsKept m'' := by
  refine ⟨Nat.le_trans h.size h'.size, fun o ho => ?_, fun o ho => ?_⟩
  · exact (h'.prototype o (ho.trans_le h.size)).trans (h.prototype o ho)
  · have ho' := ho.trans_le h.size
    rcases h.kind o ho with same | both
    · rcases h'.kind o ho' with same' | both'
      · exact .inl (same'.trans same)
      · rw [same] at both'
        exact .inr both'
    · exact .inr ⟨both.1, h'.isPlain ho' both.2⟩

theorem push (m : Machine) (o : Object) :
    m.FunctionsKept { m with objects := m.objects.push o } := by
  have same (i : ObjectId) (hi : i.index < m.objects.size) :
      Machine.object { m with objects := m.objects.push o } i = m.object i := by
    rw [object_push, if_neg (Nat.ne_of_lt hi)]
  refine ⟨by simp, fun i hi => ?_, fun i hi => ?_⟩
  · rw [same i hi]
  · rw [same i hi]
    exact .inl rfl

/-- One object changes, but not its prototype, nor its kind unless it is plain. -/
theorem modify (m : Machine) (o : ObjectId) (f : Object → Object)
    (prototype : ∀ x, (f x).prototype = x.prototype)
    (kind : (f (m.object o)).kind = (m.object o).kind ∨
      (m.object o).kind.isPlain = true ∧ (f (m.object o)).kind.isPlain = true) :
    m.FunctionsKept (m.modifyObject o f) := by
  refine ⟨by simp [modifyObject], fun i _ => ?_, fun i _ => ?_⟩
  · rw [object_modify]
    split
    next h => rw [prototype, h.1]
    next => rfl
  · rw [object_modify]
    split
    next h =>
      rw [h.1]
      exact kind
    next => exact .inl rfl

/-- What can be called can be called later, and is the same function. -/
theorem callable? (h : m.FunctionsKept m') {v : Value} {c : Callable}
    (hc : m.callable? v = some c) : m'.callable? v = some c := by
  cases v with
  | primitive p => cases hc
  | object o =>
      obtain ⟨shape, kind⟩ := callable?_object.mp hc
      have there : o.index < m.objects.size := by
        apply Nat.lt_of_not_le
        intro past
        rw [object_default m past] at shape
        cases shape
      refine callable?_object.mpr ⟨(h.prototype o there).trans shape, ?_⟩
      rcases h.kind o there with same | both
      · rw [same, kind]
      · -- a function is not plain
        rw [kind] at both
        cases both.1

end FunctionsKept

theorem Slot.mono {v : Value} (h : m.Slot v) (kept : m.FunctionsKept m') : m'.Slot v := by
  rcases h with undefined | callable
  · exact .inl undefined
  · obtain ⟨c, hc⟩ := Option.isSome_iff_exists.mp callable
    exact .inr (Option.isSome_iff_exists.mpr ⟨c, kept.callable? hc⟩)

end Machine

theorem Property.SlotsIn.mono {m m' : Machine} {p : Property} (h : p.SlotsIn m)
    (kept : m.FunctionsKept m') : p.SlotsIn m' := by
  cases p with
  | data value writable => exact trivial
  | accessor getter setter => exact ⟨h.1.mono kept, h.2.mono kept⟩

namespace Machine.AccessorsSound

variable {m m' : Machine}

/-- What could stand in accessors before can stand there after a change. -/
theorem of_kept (kept : m.FunctionsKept m')
    (slots : ∀ o, ∀ entry ∈ (m'.object o).properties.entries, entry.2.SlotsIn m)
    (functions : m'.Functions (·.accessorsAreFunctions = true)) : m'.AccessorsSound :=
  ⟨fun o entry he => (slots o entry he).mono kept, functions⟩

theorem of_objects (h : m.AccessorsSound) (same : m'.objects = m.objects) : m'.AccessorsSound := by
  have object (o : ObjectId) : m'.object o = m.object o := by
    rw [Machine.object, Machine.object, same]
  refine of_kept (.of_objects same) (fun o => ?_) fun o => ?_
  · rw [object]
    exact h.slots o
  · rw [object]
    exact h.functions o

theorem push (h : m.AccessorsSound) {o : Object}
    (slots : ∀ entry ∈ o.properties.entries, entry.2.SlotsIn m)
    (function : ∀ c, o.kind = .function c → c.accessorsAreFunctions = true) :
    AccessorsSound { m with objects := m.objects.push o } := by
  refine of_kept (.push m o) (fun i entry he => ?_) (h.functions.push function)
  rw [object_push] at he
  split at he
  · exact slots entry he
  · exact h.slots i entry he

theorem modify (h : m.AccessorsSound) (o : ObjectId) (f : Object → Object)
    (kept : m.FunctionsKept (m.modifyObject o f))
    (slots : ∀ entry ∈ (f (m.object o)).properties.entries, entry.2.SlotsIn m)
    (functions : ∀ x c, (f x).kind = .function c → x.kind = .function c) :
    (m.modifyObject o f).AccessorsSound := by
  refine of_kept kept (fun i entry he => ?_) (h.functions.modify o f functions)
  rw [object_modify] at he
  split at he
  · exact slots entry he
  · exact h.slots i entry he

end Machine.AccessorsSound

/-! ## The discipline -/

namespace Discipline

/-- What stands in accessors can stand there, and functions stay functions. -/
def accessors : Discipline where
  World := { m : Machine // m.AccessorsSound }
  machine := Subtype.val
  console w := w.val.console
  reaches _ w w' := w.val.FunctionsKept w'.val
  value _ _ := True
  slot w v := w.val.Slot v
  scope _ _ := True
  target w o := o.index < w.val.objects.size ∧ (w.val.object o).kind.isPlain = true
  builtin _ := True
  fault _ _ := True
  checks := .accessors
  fits _ := True
  room _ _ _ := True
  mayEnter _ := True
  mayExhaust := True
  inStep _ := True

variable {w : accessors.World}

theorem accessors_undemanding : accessors.Undemanding where
  value _ _ := trivial
  scope _ _ := trivial
  builtin _ := trivial
  fault _ _ := trivial
  fits _ := trivial
  room _ _ _ := trivial
  sees _ _ _ := trivial
  mayExhaust := trivial

theorem accessors_property {p : Property} : accessors.property w p ↔ p.SlotsIn w.val := by
  cases p with
  | data value writable => exact Iff.rfl
  | accessor getter setter => exact Iff.rfl

theorem accessors_callable {c : Callable} :
    accessors.callable w c ↔ c.accessorsAreFunctions = true := by
  cases c with
  | closure c => exact ⟨fun h => h.1.1, fun h => ⟨⟨h, trivial⟩, trivial⟩⟩
  | builtin b => exact ⟨fun _ => rfl, fun _ => trivial⟩
  | host f => exact ⟨fun _ => rfl, fun _ => trivial⟩

/-- A function that evaluation makes. -/
theorem object.function_accessors {o : Object} (h : accessors.object w o) {c : Callable}
    (hc : o.kind = .function c) :
    o.prototype = some .functionPrototype ∧ c.accessorsAreFunctions = true := by
  have kind := h.kind
  rw [hc] at kind
  exact ⟨kind.1, accessors_callable.mp kind.2⟩

/-- A plain object shows no accessors but those of its table. -/
theorem accessors_shown {kind : ObjectKind} {key : String} {p : Property}
    (plain : kind.isPlain = true) (hp : kind.property? key = some p) : accessors.property w p := by
  cases kind with
  | ordinary => cases hp
  | function c => cases plain
  | host table => cases plain
  | boxed q =>
      cases q with
      | string s =>
          obtain ⟨value, rfl⟩ := textProperty?_eq_some hp
          exact trivial
      | _ => cases hp

theorem accessors_follows {fp : Footprint} (change : Machine → Machine)
    (sound : (change w.val).AccessorsSound) (kept : w.val.FunctionsKept (change w.val))
    (console : (change w.val).console = w.val.console) :
    ∃ w', accessors.Follows fp w w' change ∧ w'.val = change w.val :=
  ⟨⟨change w.val, sound⟩, ⟨kept, rfl, console⟩, rfl⟩

/-- A change that leaves objects alone. -/
theorem accessors_follows_apart {fp : Footprint} (change : Machine → Machine)
    (objects : (change w.val).objects = w.val.objects)
    (console : (change w.val).console = w.val.console) :
    ∃ w', accessors.Follows fp w w' change := by
  obtain ⟨w', follows, _⟩ :=
    accessors_follows change (w.property.of_objects objects) (.of_objects objects) console
  exact ⟨w', follows⟩

theorem accessors_modifies {fp : Footprint} (o : ObjectId) (f : Object → Object)
    (kept : w.val.FunctionsKept (w.val.modifyObject o f))
    (slots : ∀ entry ∈ (f (w.val.object o)).properties.entries, entry.2.SlotsIn w.val)
    (functions : ∀ x c, (f x).kind = .function c → x.kind = .function c) :
    ∃ w', accessors.Follows fp w w' (·.modifyObject o f) := by
  obtain ⟨w', follows, _⟩ := accessors_follows (·.modifyObject o f)
    (w.property.modify o f kept slots functions) kept rfl
  exact ⟨w', follows⟩

theorem accessors_allocates {o : Object} (ho : accessors.object w o) : ∃ w',
    accessors.Follows .nothing w w' (fun m => { m with objects := m.objects.push o }) ∧
      (∀ c, o.kind = .function c → accessors.slot w' (.object ⟨w.val.objects.size⟩)) ∧
      (o.kind = .ordinary → accessors.target w' ⟨w.val.objects.size⟩) := by
  have sound : Machine.AccessorsSound { w.val with objects := w.val.objects.push o } :=
    w.property.push (fun entry he => accessors_property.mp (ho.properties entry he))
      fun c hc => (ho.function_accessors hc).2
  obtain ⟨w', follows, same⟩ := accessors_follows
    (fun m => { m with objects := m.objects.push o }) sound (.push w.val o) rfl
  have last : w'.val.object ⟨w.val.objects.size⟩ = o := by
    rw [same, Machine.object_push, if_pos rfl]
  refine ⟨w', follows, fun c hc => ?_, fun hk => ?_⟩
  · have callable : w'.val.callable? (.object ⟨w.val.objects.size⟩) = some c := by
      rw [Machine.callable?_object, last]
      exact ⟨(ho.function_accessors hc).1, hc⟩
    exact .inr (Option.isSome_iff_exists.mpr ⟨c, callable⟩)
  · constructor
    · simp [same]
    · rw [last, hk]
      rfl

theorem accessors_slots : accessors.Slots where
  mono h hv := hv.mono h
  undefined _ := .inl rfl
  callable h := .inr h
  accessors := .inr fun _ h => h
  target_shown := .inr fun _ _ _ _ ho hp => accessors_shown ho.2 hp
  entries_ok {w o} entry he := accessors_property.mpr (w.property.slots o entry he)
  callable_ok {w _ _} hc := accessors_callable.mpr (w.property.functions.of_callable? hc)

theorem accessors_changes : accessors.Changes where
  refl _ _ := .of_objects rfl
  trans := .trans
  widenScope h := h
  widenTarget h := h
  dropScope _ h := h
  dropTarget _ h := h
  target_mono h ho := ⟨ho.1.trans_le h.size, h.isPlain ho.1 ho.2⟩
  allocates := accessors_allocates
  defines {w o p} key hp := by
    refine accessors_modifies o (·.define key p) (.modify w.val o _ (fun _ => rfl) (.inl rfl)) ?_
      fun _ _ h => h
    intro entry he
    rcases Table.mem_insert he with rfl | he
    · exact accessors_property.mp hp
    · exact w.property.slots o entry he
  erases {w o} key := by
    refine accessors_modifies o (·.erase key) (.modify w.val o _ (fun _ => rfl) (.inl rfl)) ?_
      fun _ _ h => h
    intro entry he
    exact w.property.slots o entry (Table.mem_erase he)
  boxes {w o p} ho _ := by
    -- what is under construction is plain, and stays so as a box
    refine accessors_modifies o ({ · with kind := .boxed p })
      (.modify w.val o _ (fun _ => rfl) (.inr ⟨ho.2, rfl⟩)) (w.property.slots o) ?_
    intro x c hc
    cases hc
  opensScope := accessors_follows_apart _ rfl rfl
  declares _ _ := accessors_follows_apart _ rfl rfl
  assigns _ _ := accessors_follows_apart _ rfl rfl
  setsClock _ _ := accessors_follows_apart _ rfl rfl
  enters {w} frame _ := by
    refine ⟨⟨{ w.val with stack := frame :: w.val.stack }, w.property.of_objects rfl⟩, rfl, rfl,
      fun _ h => h, ?_⟩
    intro fp w₂ kept
    exact ⟨⟨{ w₂.val with stack := w₂.val.stack.tail }, w₂.property.of_objects rfl⟩,
      ⟨kept.size, kept.prototype, kept.kind⟩, rfl, rfl, fun _ => trivial⟩

theorem accessors_lawful : accessors.Lawful :=
  accessors_undemanding.lawful accessors_slots accessors_changes

theorem accessors_agree (settings : Settings) : accessors.Agree settings settings :=
  accessors_lawful.agree settings (fun _ _ _ => trivial) (fun _ _ => trivial) fun w line =>
    ⟨⟨{ w.val with console := w.val.console.push line }, w.property.of_objects rfl⟩,
      .of_objects rfl, rfl, rfl⟩

end Discipline

/-! ## Programs -/

namespace Machine.AccessorsSound

variable {m : Machine} (sound : m.AccessorsSound) (settings : Settings) (fuel : Nat) (s : ScopeId)
  {program : Program} (checked : program.accessorsAreFunctions = true)
include sound checked

/-- A program can be evaluated wherever accessors are sound. -/
theorem requests : Discipline.accessors.Requests fuel ⟨m, sound⟩ (.program program s) := by
  apply Discipline.accessors_undemanding.requests
  · intro refines
    cases refines.expr .unsupported rfl
  · exact checked
  · intro o ho
    cases ho

theorem evalProgram :
    ((settings.runner fuel).evalProgram s program m).machine.AccessorsSound := by
  obtain ⟨w', _, ends⟩ := Discipline.accessors_lawful.perform
    (Discipline.accessors_agree settings) fuel _ (sound.requests fuel s checked)
  have left : ((settings.runner fuel).evalProgram s program m).machine = w'.val := ends
  rw [left]
  exact w'.property

theorem evalProgram_guarded {test : Machine → Bool}
    (passes : ∀ m' : Machine, m'.AccessorsSound → test m' = true) (alarm : (α : Type) → Eval α) :
    (settings.guardedRunner test alarm fuel).evalProgram s program m =
      (settings.runner fuel).evalProgram s program m :=
  Discipline.accessors_lawful.perform_guarded (Discipline.accessors_agree settings) (fun _ => rfl)
    (fun _ => trivial) (fun w => passes w.val w.property) alarm (sound.requests fuel s checked)

end Machine.AccessorsSound

/-! ## Reading and writing -/

namespace Runner

/-- Calls a function that is known to be one. -/
def callFunction (r : Runner) (callable : Callable) (receiver : Value) (arguments : List Value) :
    Eval Value := do
  Eval.checkTimeout r.settings
  Eval.checkDepth r.settings
  Eval.withFrame ⟨callable.name?, callable.position?⟩ (r.enter callable receiver arguments none)

variable {m : Machine} (settings : Settings) (fuel : Nat) (receiver : Value)

/-- What can be called is not refused for what it is. -/
theorem call_of_callable {callee : Value} {callable : Callable}
    (h : m.callable? callee = some callable) (arguments : List Value) :
    (settings.runner (fuel + 1)).call callee receiver arguments m =
      (settings.runner fuel).callFunction callable receiver arguments m := by
  let r := settings.runner fuel
  let enter (callable : Callable) : Eval Value := Eval.withFrame
    ⟨callable.name?, callable.position?⟩ (r.enter callable receiver arguments none)
  have allowed : r.allow callee none m =
      (do
        Eval.checkTimeout r.settings
        Eval.checkDepth r.settings
        return callable) m := allow_of_constructor h (by simp)
  show (r.allow callee none >>= enter) m = r.callFunction callable receiver arguments m
  calc (r.allow callee none >>= enter) m
      = ((do
          Eval.checkTimeout r.settings
          Eval.checkDepth r.settings
          return callable) >>= enter) m := by
        show Eval.bind _ _ m = Eval.bind _ _ m
        rw [Eval.bind, allowed, Eval.bind]
    _ = r.callFunction callable receiver arguments m := by
        simp only [bind_assoc, pure_bind]
        rfl

/-- Calls what stands in an accessor, or does nothing if that is undefined. -/
theorem slot_cases {v : Value} (h : m.Slot v) (arguments : List Value) :
    v.isUndefined = true ∨ ∃ c, m.callable? v = some c ∧ v.isUndefined = false ∧
      (settings.runner (fuel + 1)).call v receiver arguments m =
        (settings.runner fuel).callFunction c receiver arguments m := by
  cases undefined : v.isUndefined with
  | true => exact .inl rfl
  | false =>
      rcases h with h | callable
      · cases undefined.symm.trans h
      · obtain ⟨c, hc⟩ := Option.isSome_iff_exists.mp callable
        exact .inr ⟨c, hc, rfl, call_of_callable settings fuel receiver hc arguments⟩

variable {o : ObjectId} {key : String} {getter setter : Value}
  (found : Eval.property? o key m = .value (some (.accessor getter setter)) m)
include found

/-- Reading by an accessor whose getter can stand there. -/
theorem readProperty_slot (slot : m.Slot getter) :
    (settings.runner (fuel + 1)).readProperty o key receiver m = .value .undefined m ∨
      ∃ c, m.callable? getter = some c ∧
        (settings.runner (fuel + 1)).readProperty o key receiver m =
          (settings.runner fuel).callFunction c receiver [] m := by
  have reads : (settings.runner (fuel + 1)).readProperty o key receiver m =
      (if getter.isUndefined then pure .undefined
        else (settings.runner (fuel + 1)).call getter receiver []) m := Eval.bind_of_value found
  rw [reads]
  rcases slot_cases settings fuel receiver slot [] with undefined | ⟨c, hc, defined, calls⟩
  · rw [if_pos undefined]
    exact .inl rfl
  · rw [if_neg (by simp [defined])]
    exact .inr ⟨c, hc, calls⟩

/-- Writing by an accessor whose setter can stand there. -/
theorem assignProperty_slot (slot : m.Slot setter) (value : Value) :
    (settings.runner (fuel + 1)).assignProperty o key value receiver m = .value () m ∨
      ∃ c, m.callable? setter = some c ∧
        (settings.runner (fuel + 1)).assignProperty o key value receiver m =
          (do
            let _ ← (settings.runner fuel).callFunction c receiver [value]
            pure ()) m := by
  have writes : (settings.runner (fuel + 1)).assignProperty o key value receiver m =
      (if setter.isUndefined then pure ()
        else do
          let _ ← (settings.runner (fuel + 1)).call setter receiver [value]
          pure ()) m := Eval.bind_of_value found
  rw [writes]
  rcases slot_cases settings fuel receiver slot [value] with undefined | ⟨c, hc, defined, calls⟩
  · rw [if_pos undefined]
    exact .inl rfl
  · rw [if_neg (by simp [defined])]
    refine .inr ⟨c, hc, ?_⟩
    show Eval.bind _ _ m = Eval.bind _ _ m
    rw [Eval.bind, calls, Eval.bind]

end Runner

/-- Where accessors are sound, a program whose getters and setters are written as functions leaves
them sound, and no task on the way starts on a machine where they are not.  So what stands in an
accessor of a table is never refused as a callee: a read or a write by it does nothing, or calls a
function. -/
theorem accessor_slots_sound {m : Machine} (sound : m.AccessorsSound) (settings : Settings)
    (fuel : Nat) :
    (∀ (program : Program) (s : ScopeId), program.accessorsAreFunctions = true →
      ((settings.runner fuel).evalProgram s program m).machine.AccessorsSound ∧
      ∀ (test : Machine → Bool) (alarm : (α : Type) → Eval α),
        (∀ m' : Machine, m'.AccessorsSound → test m' = true) →
          (settings.guardedRunner test alarm fuel).evalProgram s program m =
            (settings.runner fuel).evalProgram s program m) ∧
    ∀ (holder o : ObjectId) (key : String) (getter setter : Value),
      (m.object holder).properties.get? key = some (.accessor getter setter) →
      Eval.property? o key m = .value (some (.accessor getter setter)) m →
      ∀ receiver value,
        ((settings.runner (fuel + 1)).readProperty o key receiver m = .value .undefined m ∨
          ∃ c, m.callable? getter = some c ∧
            (settings.runner (fuel + 1)).readProperty o key receiver m =
              (settings.runner fuel).callFunction c receiver [] m) ∧
        ((settings.runner (fuel + 1)).assignProperty o key value receiver m = .value () m ∨
          ∃ c, m.callable? setter = some c ∧
            (settings.runner (fuel + 1)).assignProperty o key value receiver m =
              (do
                let _ ← (settings.runner fuel).callFunction c receiver [value]
                pure ()) m) := by
  constructor
  · intro program s checked
    refine ⟨sound.evalProgram settings fuel s checked, fun test alarm passes => ?_⟩
    exact sound.evalProgram_guarded settings fuel s checked passes alarm
  · intro holder o key getter setter held found receiver value
    obtain ⟨get, set⟩ := sound.slots holder _ (Table.mem_of_get? held)
    exact ⟨Runner.readProperty_slot settings fuel receiver found get,
      Runner.assignProperty_slot settings fuel receiver found set value⟩

/-- A machine with one scope and no objects. -/
def emptyHeapMachine : Machine := { Machine.empty with scopes := #[⟨none, .undefined, .empty⟩] }

/-- `var o = { get x() { return "got"; } };` -/
def getterProgram : Program :=
  ⟨[.declaration .var [⟨.ident "o", some (.object [.property (.ident "x")
    (.function ⟨none, [], .block [.ret (some (.literal ⟨.string "got", none, none⟩))], false,
      false, none⟩) .getter false false false])⟩]]⟩

theorem accessor_slots_sound_getter :
    let m := ((Settings.standard.runner 9).evalProgram ⟨0⟩ getterProgram emptyHeapMachine).machine
    emptyHeapMachine.AccessorsSound ∧ getterProgram.accessorsAreFunctions = true ∧
      m.AccessorsSound ∧ ∃ getter c, (m.object ⟨0⟩).properties.get? "x" =
        some (.accessor getter .undefined) ∧ m.callable? getter = some c ∧
        (Settings.standard.runner 9).readProperty ⟨0⟩ "x" .undefined m =
          (Settings.standard.runner 8).callFunction c .undefined [] m := by
  intro m
  have sound : emptyHeapMachine.AccessorsSound := by
    constructor
    · intro o entry he
      cases he
    · intro o c hc
      cases hc
  have checked : getterProgram.accessorsAreFunctions = true := by decide
  have after : m.AccessorsSound :=
    ((accessor_slots_sound sound .standard 9).1 getterProgram ⟨0⟩ checked).1
  have held : (m.object ⟨0⟩).properties.get? "x" =
      some (.accessor (.object ⟨1⟩) .undefined) := rfl
  have read := ((accessor_slots_sound after .standard 8).2 ⟨0⟩ ⟨0⟩ "x" _ _ held rfl .undefined
    .undefined).1
  rcases read with undefined | ⟨c, hc, calls⟩
  · cases undefined
  · exact ⟨sound, checked, after, _, c, held, hc, calls⟩

end ScriptTree
