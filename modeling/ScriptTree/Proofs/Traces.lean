import ScriptTree.Proofs.CallStack

/-!
# The traces of faults

A thrown value and an internal fault carry the calls that were active when they came about, the
innermost first.  They travel outward from there: through the calls they leave, and past handlers
and finalizers, which let them through or put another fault in their place.  So at every moment the
calls that are active are the last ones of the trace (`fault_trace_extends`).

This rests on the stack being balanced in between.  A fault is watched at the world where it is met,
and a world has the stack of that moment: a fault that comes about has the stack itself as its trace,
and a call that ends takes one frame off the stack and nothing off the trace.
-/

namespace ScriptTree

/-- The calls that a fault has recorded, the innermost first. -/
def Fault.trace? : Fault → Option (List Frame)
  | .thrown _ _ trace | .internal _ trace => some trace
  | .typeError _ | .referenceError _ | .rangeError _ | .timeout .. | .invalidTree => none

/-- The calls that an outcome has recorded, if it is a fault that records calls. -/
def Outcome.trace? {α : Type} : Outcome α → Option (List Frame)
  | .fault f _ => f.trace?
  | .value .. | .exhausted _ => none

theorem Outcome.exists_of_trace? {α : Type} {outcome : Outcome α} {trace : List Frame}
    (h : outcome.trace? = some trace) : ∃ f m, outcome = .fault f m ∧ f.trace? = some trace := by
  cases outcome with
  | value a m => cases h
  | fault f m => exact ⟨f, m, rfl, h⟩
  | exhausted m => cases h

namespace Discipline

variable {within : Nat → Prop}

/-- The trace goes on with the calls that are active, and its length is within bounds. -/
def Traced (within : Nat → Prop) (stack : List Frame) (f : Fault) : Prop :=
  ∀ trace, f.trace? = some trace → stack <:+ trace ∧ within trace.length

/-- The stack is balanced, and faults have recorded it. -/
def traced (within : Nat → Prop) : Discipline :=
  (balanced within fun _ => True).watching fun w => Traced within w.val.stack

/-- A fault that records the stack as it is. -/
theorem Traced.of_stack {stack : List Frame} {f : Fault} (h : f.trace? = some stack)
    (hs : within stack.length) : Traced within stack f := by
  intro trace ht
  cases h.symm.trans ht
  exact ⟨List.suffix_refl stack, hs⟩

/-- A fault that records nothing. -/
theorem Traced.of_none {stack : List Frame} {f : Fault} (h : f.trace? = none) :
    Traced within stack f := by
  intro trace ht
  cases h.symm.trans ht

/-- A fault that leaves a call. -/
theorem Traced.tail {stack : List Frame} {f : Fault} (h : Traced within stack f) :
    Traced within stack.tail f := by
  intro trace ht
  obtain ⟨suffix, bound⟩ := h trace ht
  exact ⟨(List.tail_suffix stack).trans suffix, bound⟩

theorem traced_faults : (balanced within fun _ => True).FaultLaws fun w =>
    Traced within w.val.stack where
  mono {_ w w' f} same h := by
    have stack : w'.val.stack = w.val.stack := same
    rw [stack]
    exact h
  typeError _ _ := .of_none rfl
  referenceError _ _ := .of_none rfl
  rangeError _ _ := .of_none rfl
  thrown {w v} _ _ := .of_stack rfl w.property
  value _ := trivial
  text _ h := h
  internal w _ := .of_stack rfl w.property
  leaves {w w' f} machine h := by
    have popped : w'.val.stack = w.val.stack.tail := congrArg Machine.stack machine
    rw [popped]
    exact h.tail

theorem traced_lawful : (traced within).Lawful := balanced_lawful.watching traced_faults

theorem traced_lenient : (traced within).Lenient where
  value _ _ := trivial
  scope _ _ := trivial
  builtin _ := trivial
  fits _ := trivial
  room _ _ _ := trivial
  sees _ _ _ := trivial
  mayExhaust := trivial

theorem traced_agree {settings : Settings}
    (may : ∀ n, n < settings.maxCallDepth → within (n + 1)) :
    (traced within).Agree settings settings := by
  apply traced_lawful.agree settings
  · intro w limit elapsed
    exact .of_none rfl
  · intro w below
    exact may _ below
  · intro w line
    exact ⟨⟨{ w.val with console := w.val.console.push line }, w.property⟩, rfl, rfl, rfl⟩

end Discipline

/-- A fault that leaves an operation is traced on the stack the operation started with. -/
theorem perform_traced (within : Nat → Prop) {settings : Settings}
    (may : ∀ n, n < settings.maxCallDepth → within (n + 1)) {fuel : Nat} {α : Type}
    {op : Operation α} {m m' : Machine} {f : Fault} (start : within m.stack.length)
    (ends : op.perform (settings.runner fuel) m = .fault f m') :
    Discipline.Traced within m.stack f := by
  have runs := Discipline.traced_lawful.runner (Discipline.traced_agree may) (Nat.le_refl fuel)
    fun _ => rfl
  have requested : (Discipline.traced within).Requests fuel ⟨m, start⟩ op :=
    Discipline.traced_lenient.requests Discipline.anything_not_supported op.passes_anything
      fun _ _ => trivial
  obtain ⟨w', same, traced⟩ := (runs.operation op requested).reached_fault ends
  have stack : w'.val.stack = m.stack := same
  rw [← stack]
  exact traced

/-- The trace of a fault is that of the calls inside the operation, then the calls that were active
before it; and it is no longer than the limit if these were not. -/
theorem fault_trace_extends (settings : Settings) (fuel : Nat) {α : Type} (op : Operation α)
    (m : Machine) (trace : List Frame)
    (recorded : (op.perform (settings.runner fuel) m).trace? = some trace) :
    (∃ inner, trace = inner ++ m.stack) ∧
      (m.stack.length ≤ settings.maxCallDepth → trace.length ≤ settings.maxCallDepth) := by
  obtain ⟨f, m', ends, recorded⟩ := Outcome.exists_of_trace? recorded
  constructor
  · have traced := perform_traced (fun _ => True) (fun _ _ => trivial) trivial ends
    obtain ⟨inner, joined⟩ := (traced trace recorded).1
    exact ⟨inner, joined.symm⟩
  · intro start
    have traced := perform_traced (· ≤ settings.maxCallDepth) (fun _ below => below) start ends
    exact (traced trace recorded).2

/-- A machine inside a call of `main` that has the functions
`function f() { try { throw "early"; } finally { g(); } }` and `function g() { throw "late"; }`. -/
def finalizingMachine : Machine :=
  { Machine.empty with
    objects := #[closure "f" [.tryCatch [.throw (text "early")] none
        (some [.expression (.call (.ident "g") [])])],
      closure "g" [.throw (text "late")]]
    scopes := #[⟨none, .undefined, .ofList [("g", ⟨.object ⟨1⟩, true⟩)]⟩]
    stack := [⟨some "main", none⟩] }
where
  text (s : String) : Expr := .literal ⟨.string s, none, none⟩
  closure (name : String) (body : List Stmt) : Object :=
    ⟨some .functionPrototype, .empty, .function (.closure
      ⟨some name, ⟨some name, [], .block body, false, false, none⟩, ⟨0⟩, false⟩)⟩

/-- The fault of the finalizer replaces the pending one, and its trace ends with the call of
`main`. -/
theorem fault_trace_extends_finalizer :
    let trace : List Frame := [⟨some "g", none⟩, ⟨some "f", none⟩, ⟨some "main", none⟩]
    ((Operation.call (.object ⟨0⟩) .undefined [] none).perform
        (Settings.runner ⟨3, 0, .record, id⟩ 12) finalizingMachine).trace? = some trace ∧
      (∃ inner, trace = inner ++ finalizingMachine.stack) ∧ trace.length ≤ 3 := by
  intro trace
  have recorded : ((Operation.call (.object ⟨0⟩) .undefined [] none).perform
      (Settings.runner ⟨3, 0, .record, id⟩ 12) finalizingMachine).trace? = some trace := by
    decide +kernel
  have law := fault_trace_extends ⟨3, 0, .record, id⟩ 12 _ finalizingMachine trace recorded
  exact ⟨recorded, law.1, law.2 (by decide)⟩

end ScriptTree
