import ScriptTree.Proofs.Runs

/-!
# Internal faults

A program whose tree is supported, on a machine whose functions are supported, ends with an internal
fault only by the `Function` constructor.  Jumps are part of it: a supported body is left by
`return` only and a supported program by none, so no `break`, `continue` or `return` reaches a place
that has no rule for it.
-/

namespace ScriptTree

/-- Whether a program can run without a fault of its tree. -/
def Program.isSupported (program : Program) : Bool :=
  allStmts .supported program.body && (jumpsOf program.body).isEmpty

/-- The functions that raise no internal fault.  Whether the `Function` constructor is among them is
left open. -/
def Callable.isSupportedOr (constructor : Prop) : Callable → Prop
  | .closure c => c.code.all .supported = true
  | .builtin b => b = .functionConstructor → constructor
  | .host _ => True

namespace Discipline

/-- The functions of the machine stay supported, and internal faults are those of the `Function`
constructor. -/
def support (constructor : Prop) : Discipline where
  World := { m : Machine // m.Functions (·.isSupportedOr constructor) }
  machine := Subtype.val
  console w := w.val.console
  reaches _ _ _ := True
  value _ _ := True
  slot _ _ := True
  scope _ _ := True
  target _ _ := True
  builtin b := b = .functionConstructor → constructor
  fault _ f := ∀ message trace, f = .internal message trace → constructor ∧
    message = "Unsupported syntax: Function constructor (no source parser available)"
  checks := .supported
  fits _ := True
  room _ _ _ := True
  mayEnter _ := True
  mayExhaust := True
  inStep _ := True

theorem support_callable {constructor : Prop} {w : (support constructor).World} {c : Callable} :
    (support constructor).callable w c ↔ c.isSupportedOr constructor := by
  cases c with
  | closure c => exact ⟨fun h => h.1.1, fun h => ⟨⟨h, trivial⟩, trivial⟩⟩
  | builtin b => exact Iff.rfl
  | host f => exact Iff.rfl

/-- A machine that still has supported functions only is a world. -/
theorem support_follows {constructor : Prop} {fp : Footprint} (w : (support constructor).World)
    (change : Machine → Machine) (h : (change w.val).Functions (·.isSupportedOr constructor))
    (console : (change w.val).console = w.val.console) :
    (support constructor).Follows fp w ⟨change w.val, h⟩ change :=
  ⟨trivial, rfl, console⟩

theorem support_lawful (constructor : Prop) : (support constructor).Lawful where
  fault_typeError _ _ _ _ h := nomatch h
  fault_referenceError _ _ _ _ h := nomatch h
  fault_rangeError _ _ _ _ h := nomatch h
  fault_thrown _ _ _ _ h := nomatch h
  thrown_text _ _ _ _ h := nomatch h
  fault_internal := .inr ⟨fun _ h => h, fun _ h => h, fun _ h => h⟩
  fault_functionConstructor _ hb _ _ h := by
    cases h
    exact ⟨hb rfl, by decide⟩
  entries_ok _ _ := property_of_values (fun _ => trivial) (fun _ => trivial) _
  callable_ok {w _ _} h := support_callable.mpr (w.property.of_callable? h)
  allocates {w o} h := by
    have functions : ∀ c, o.kind = .function c → c.isSupportedOr constructor := by
      intro c hc
      have hk := h.kind
      rw [hc] at hk
      exact support_callable.mp hk.2
    exact ⟨_, support_follows w (fun m => { m with objects := m.objects.push o })
      (w.property.push functions) rfl, trivial, fun _ _ => trivial, fun _ => trivial⟩
  defines {w o p} key _ _ := ⟨_, support_follows w (·.modifyObject o (·.define key p))
    (w.property.modify o _ fun _ _ h => h) rfl⟩
  erases {w o} key _ := ⟨_, support_follows w (·.modifyObject o (·.erase key))
    (w.property.modify o _ fun _ _ h => h) rfl⟩
  boxes {w o p} _ _ := ⟨_, support_follows w (·.modifyObject o ({ · with kind := .boxed p }))
    (w.property.modify o _ fun _ _ h => nomatch h) rfl⟩
  opensScope {w _ _} _ _ := ⟨_, support_follows w _ w.property rfl, trivial⟩
  declares {w _ _} _ _ _ _ := ⟨_, support_follows w _ w.property rfl⟩
  assigns {w _ _ _ _} _ _ _ := ⟨_, support_follows w _ w.property rfl⟩
  setsClock w _ := ⟨_, support_follows w _ w.property rfl⟩
  enters {_ w} frame _ _ := by
    refine ⟨⟨{ w.val with stack := frame :: w.val.stack }, w.property⟩,
      { machine := rfl, console := rfl }, fun _ w₂ _ => ?_⟩
    exact ⟨⟨{ w₂.val with stack := w₂.val.stack.tail }, w₂.property⟩,
      { reaches := trivial, machine := rfl, console := rfl, fault := fun _ h => h }⟩

theorem support_agree (constructor : Prop) (settings : Settings) :
    (support constructor).Agree settings settings :=
  (support_lawful constructor).agree settings (fun _ _ _ _ _ h => nomatch h)
    (fun _ _ => trivial) fun w line =>
      ⟨⟨{ w.val with console := w.val.console.push line }, w.property⟩, trivial, rfl, rfl⟩

end Discipline

/-! ## Programs -/

/-- A supported program on a machine with supported functions has no internal fault but that of the
`Function` constructor, and this one only if the machine has such a function. -/
theorem internal_of_isSupported {settings : Settings} {fuel : Nat} {s : ScopeId}
    {program : Program} {m m' : Machine} {message : String} {trace : List Frame}
    (functions : ∀ o c, (m.object o).kind = .function (.closure c) →
      c.code.all .supported = true)
    (supported : program.isSupported = true)
    (internal : (settings.runner fuel).evalProgram s program m =
      .fault (.internal message trace) m') :
    message = "Unsupported syntax: Function constructor (no source parser available)" ∧
      ∃ o, (m.object o).kind = .function (.builtin .functionConstructor) := by
  -- whether the machine has a `Function` constructor is carried along as a proposition
  have functions' : m.Functions (·.isSupportedOr
      (∃ o, (m.object o).kind = .function (.builtin .functionConstructor))) := by
    intro o c hc
    cases c with
    | closure c => exact functions o c hc
    | builtin b => exact fun hb => ⟨o, hb ▸ hc⟩
    | host f => exact trivial
  have law := Discipline.support_lawful
    (∃ o, (m.object o).kind = .function (.builtin .functionConstructor))
  have runs := law.runner (Discipline.support_agree _ settings) (Nat.le_refl fuel) fun _ => rfl
  rw [Program.isSupported, Bool.and_eq_true] at supported
  have keeps := runs.evalProgram (w := ⟨m, functions'⟩) (s := s) ⟨supported.1, trivial⟩ trivial
    fun _ => supported.2
  obtain ⟨_, fault⟩ := keeps.of_fault internal
  exact (fault message trace rfl).symm

/-- A function object for each kind of function, and a scope that binds `Function`. -/
def internalFaultMachine : Machine :=
  { Machine.empty with
    objects := #[
      ⟨some .functionPrototype, .empty, .function (.builtin .functionConstructor)⟩,
      ⟨some .functionPrototype, .empty, .function (.closure
        ⟨none, ⟨none, [.rest (.ident "values")], .block [.ret (some .this)], false, false, none⟩,
          ⟨0⟩, false⟩)⟩]
    scopes := #[⟨none, .undefined, .ofList [("Function", ⟨.object ⟨0⟩, true⟩)]⟩] }

/-- The program `for (;;) { Function(); break; }`. -/
def internalFaultProgram : Program :=
  ⟨[.forLoop none none none
    (.block [.expression (.call (.ident "Function") []), .brk none])]⟩

theorem internal_of_isSupported_function :
    internalFaultProgram.isSupported = true ∧
      ∃ message trace m', (Settings.standard.runner 6).evalProgram ⟨0⟩ internalFaultProgram
          internalFaultMachine = .fault (.internal message trace) m' ∧
        message = "Unsupported syntax: Function constructor (no source parser available)" ∧
        ∃ o, (internalFaultMachine.object o).kind = .function (.builtin .functionConstructor) := by
  have functions : ∀ o c, (internalFaultMachine.object o).kind = .function (.closure c) →
      c.code.all .supported = true := by
    rintro ⟨_ | _ | o⟩ c h
    · cases h
    · cases h
      rfl
    · cases h
  have supported : internalFaultProgram.isSupported = true := by decide
  have internal : ∃ trace m', (Settings.standard.runner 6).evalProgram ⟨0⟩ internalFaultProgram
      internalFaultMachine = .fault (.internal
        "Unsupported syntax: Function constructor (no source parser available)" trace) m' :=
    ⟨_, _, rfl⟩
  obtain ⟨trace, m', internal⟩ := internal
  exact ⟨supported, _, trace, m', internal, internal_of_isSupported functions supported internal⟩

end ScriptTree
