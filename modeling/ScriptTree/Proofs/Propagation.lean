import ScriptTree.Proofs.SimulatedStatements
import ScriptTree.Realm

/-!
# Faults that no script can catch

An internal fault or a timeout goes through to the embedder.  No handler takes it, and whatever runs
the task that ended with it ends with such a fault too.  There are two exceptions.  The finalizer of
a `try` runs after such a fault as after any other end, and when it does not run to its end, the
`try` ends as the finalizer did.  And when no script caught a thrown value, its `toString` runs for
the text of the fault: if that ends with a fault, of whatever kind, the program still ends with the
throw and the other fault is lost.

That a fault goes through is said by comparison.  `Runner.escaping` is a runner that goes on in an
arbitrary way where a task ended with a fault that no script can catch.  If that makes no difference
(`Runner.Steady`), no task that was run ended so.  `Settings.escapingRunner` goes on so at every depth
of a run.
-/

namespace ScriptTree

/-! ## Like machines behind no veil -/

section Likeness

variable {V : Veil}

theorem Callable.Like.eq (hides : ¬V.hides) : ∀ {c c' : Callable}, c.Like V c' → c' = c
  | .closure _, _, ⟨_, rfl, h⟩ => by rw [h.eq hides]
  | .builtin _, _, h | .host _, _, h => h

theorem Callable.Like.refl (h : V.finalizers) : ∀ c : Callable, c.Like V c
  | .closure c => ⟨c.code, rfl, .refl h c.code⟩
  | .builtin _ | .host _ => rfl

theorem ObjectKind.Like.eq (hides : ¬V.hides) : ∀ {k k' : ObjectKind}, k.Like V k' → k' = k
  | .function _, _, ⟨_, rfl, h⟩ => by rw [h.eq hides]
  | .ordinary, _, h | .boxed _, _, h | .host _, _, h => h

theorem Object.Like.eq (hides : ¬V.hides) {o o' : Object} (h : o.Like V o') : o' = o := by
  obtain ⟨prototype, properties, kind⟩ := o
  obtain ⟨prototype', properties', kind'⟩ := o'
  have sameKind : kind' = kind := h.kind.eq hides
  have samePrototype : prototype = prototype' := h.prototype
  have sameProperties : properties = properties' := h.properties
  rw [sameKind, samePrototype, sameProperties]

theorem Machine.Alike.eq (hides : ¬V.hides) {m m' : Machine} (h : m.Alike V m') : m' = m := by
  have objects : m'.objects = m.objects := by
    refine Array.ext h.size.symm fun i hi' hi => ?_
    have like := (h.object ⟨i⟩).eq hides
    simpa [Machine.object, hi, hi'] using like
  rw [h.eq_but_objects, objects]

end Likeness

/-! ## Escapes -/

/-- Whether an action ended with a fault that no script can catch. -/
def Outcome.isUncatchable {α : Type} : Outcome α → Bool
  | .fault f _ => !f.isCatchable
  | _ => false

theorem Outcome.isUncatchable_fault {α : Type} {f : Fault} (uncatchable : f.isCatchable = false)
    (m : Machine) : (Outcome.fault f m : Outcome α).isUncatchable = true := by
  rw [isUncatchable, uncatchable]
  rfl

/-- Whether statements ran to their end. -/
def Outcome.isNormal : Outcome Completion → Bool
  | .value (.normal _) _ => true
  | _ => false

/-- The end of a finalizer while a fault is pending, which comes back when the finalizer runs to its
end. -/
def Outcome.thenFault (f : Fault) : Outcome Completion → Outcome Completion
  | .value (.normal _) m => .fault f m
  | o => o

/-- Whether an attempt gave a fault that no script can catch. -/
def Outcome.holdsUncatchable {α : Type} : Outcome (Except Fault α) → Bool
  | .value (.error f) _ => !f.isCatchable
  | _ => false

theorem Outcome.exists_of_holdsUncatchable {α : Type} {o : Outcome (Except Fault α)}
    (h : o.holdsUncatchable = true) : ∃ f n, o = .value (.error f) n ∧ f.isCatchable = false := by
  match o, h with
  | .value (.error f) n, h => exact ⟨f, n, rfl, by simpa [holdsUncatchable] using h⟩

/-- The action that goes on as `escape` says where it ended with a fault that no script can catch. -/
def Eval.escaping {α : Type} (x : Eval α) (escape : Fault → Eval α) : Eval α := fun m =>
  match x m with
  | .fault f m' => if f.isCatchable then .fault f m' else escape f m'
  | o => o

/-- The runner that goes on as `escape` says where a task ended with a fault that no script can
catch. -/
def Runner.escaping (r : Runner) (escape : (α : Type) → Fault → Eval α) : Runner :=
  { r with run := fun {α} task => (r.run task).escaping (escape α) }

/-- The interpreter that goes on as `escape` says where, at any depth of the run, a task ended with a
fault that no script can catch. -/
def Settings.escapingRunner (settings : Settings) (escape : (α : Type) → Fault → Eval α) :
    Nat → Runner
  | 0 => settings.runner 0
  | fuel + 1 => (settings.escapingRunner escape fuel).next.escaping escape

/-- Whether a task executes a `try` with a finalizer. -/
def Task.hasFinalizer {α : Type} : Task α → Bool
  | .exec statement _ => statement.hasFinalizer
  | _ => false

/-- No task that the action runs ends with a fault that no script can catch: it makes no difference
how a runner would go on. -/
def Runner.Steady {α : Type} (r : Runner) (x : Runner → Eval α) (m : Machine) : Prop :=
  ∀ escape, x (r.escaping escape) m = x r m

/-- Two evaluations of the same on the same machine, up to the first fault that no script can
catch. -/
def Slack.uncatchable (finalizers : Prop) : Slack where
  hides := False
  finalizers := finalizers
  escapes f := f.isCatchable = false
  tires := False
  lags := False
  uncaught _ h := h
  hidden h := h.elim

theorem Machine.alike_uncatchable (m : Machine) : m.Alike (Slack.uncatchable True).toVeil m :=
  .refl fun _ c _ => .refl trivial c

namespace Slack

variable {finalizers : Prop} {α : Type}

theorem Ends.uncatchable {o o' : Outcome α} (h : (Slack.uncatchable finalizers).Ends Eq o o') :
    o.isUncatchable = true ∨ o' = o := by
  cases h with
  | value hab alike =>
      cases hab
      rw [alike.eq id]
      exact .inr rfl
  | fault alike | exhausted alike =>
      rw [alike.eq id]
      exact .inr rfl
  | escaped hf => exact .inl (Outcome.isUncatchable_fault hf _)
  | tired h | lagging h => exact h.elim

theorem Sim.escaping {x y : Eval α} (h : (Slack.uncatchable finalizers).Same x y)
    (escape : Fault → Eval α) :
    (Slack.uncatchable finalizers).Same x (y.escaping escape) := by
  intro m m' alike
  have ends := h m m' alike
  rw [Eval.escaping]
  generalize x m = o at ends
  generalize y m' = o' at ends
  cases ends with
  | value hab alike => exact .value hab alike
  | exhausted alike => exact .exhausted alike
  | escaped hf => exact .escaped hf
  | tired h | lagging h => exact h.elim
  | @fault f _ _ alike =>
      cases hf : f.isCatchable with
      | true =>
          simp only [hf]
          exact .fault alike
      | false => exact .escaped hf

theorem Pair.escaping {r r' : Runner} (h : (Slack.uncatchable finalizers).Pair r r')
    (escape : (α : Type) → Fault → Eval α) :
    (Slack.uncatchable finalizers).Pair r (r'.escaping escape) where
  settings := h.settings
  turns_le := h.turns_le
  turns_ge := h.turns_ge
  eval s _ _ he := (h.eval s he).escaping _
  exec s _ _ ht := (h.exec s ht).escaping _
  apply callee receiver arguments target := (h.apply callee receiver arguments target).escaping _
  hidden h := h.elim

/-- An evaluation in lockstep with itself. -/
theorem Sim.itself (x : Eval α) : (Slack.uncatchable True).Same x x := by
  intro m m' alike
  obtain rfl := alike.eq id
  cases x m' with
  | value a n => exact .value rfl n.alike_uncatchable
  | fault f n => exact .fault n.alike_uncatchable
  | exhausted n => exact .exhausted n.alike_uncatchable

theorem Pair.itself (r : Runner) : (Slack.uncatchable True).Pair r r where
  settings := rfl
  turns_le := .inr (Nat.le_refl _)
  turns_ge := .inr (Nat.le_refl _)
  eval s e e' he := by
    cases he.eq id
    exact .itself _
  exec s t t' ht := by
    cases ht.eq id
    exact .itself _
  apply callee receiver arguments target := .itself _
  hidden h := h.elim

/-- Without finalizers, a fault that no script can catch ends a run at whatever depth it comes up. -/
theorem pair_escapingRunner (settings : Settings) (escape : (α : Type) → Fault → Eval α) :
    ∀ fuel, (Slack.uncatchable False).Pair (settings.runner fuel)
      (settings.escapingRunner escape fuel)
  | 0 =>
      { settings := rfl
        turns_le := .inr (Nat.le_refl _)
        turns_ge := .inr (Nat.le_refl _)
        eval := fun _ _ _ _ => Sim.exhausted
        exec := fun _ _ _ _ => Sim.exhausted
        apply := fun _ _ _ _ => Sim.exhausted
        hidden := fun h => h.elim }
  | fuel + 1 => ((pair_escapingRunner settings escape fuel).next id).escaping escape

end Slack

namespace Runner

variable {α β : Type} (r : Runner) (s : ScopeId)

/-- What two runners do alike ends with a fault that no script can catch, or is steady. -/
theorem steady_of_same {x : Runner → Eval α}
    (h : ∀ escape, (Slack.uncatchable True).Same (x r) (x (r.escaping escape))) (m : Machine) :
    (x r m).isUncatchable = true ∨ r.Steady x m := by
  cases uncatchable : (x r m).isUncatchable with
  | true => exact .inl rfl
  | false =>
      refine .inr fun escape => ?_
      exact ((h escape m m m.alike_uncatchable).uncatchable).resolve_left (by simp [uncatchable])

theorem block_steady (body : List Stmt) (m : Machine) :
    (r.block s body m).isUncatchable = true ∨ r.Steady (·.block s body) m :=
  r.steady_of_same (x := (·.block s body))
    (fun escape => ((Slack.Pair.itself r).escaping escape).block s (likeStmts_refl trivial body)) m

/-! ## Constructs -/

/-- What a task runs ends with a fault that no script can catch, or none of it does.  Only a `try`
with a finalizer is left out. -/
theorem step_steady (task : Task α) (free : task.hasFinalizer = false) (m : Machine) :
    (r.step task m).isUncatchable = true ∨ r.Steady (·.step task) m := by
  refine r.steady_of_same (x := (·.step task)) (fun escape => ?_) m
  have pair := (Slack.Pair.itself r).escaping escape
  cases task with
  | eval e s => exact pair.evaluate s (.refl trivial e)
  | exec t s => exact pair.execute s (.refl trivial t) free
  | call callee receiver arguments target => exact pair.applies callee receiver arguments target

/-- A steady action, and what follows it. -/
theorem Steady.andThen {r : Runner} {m : Machine} {x : Runner → Eval α}
    {f : Runner → α → Eval β} {P : Outcome β → Prop} (h : r.Steady x m)
    (next : ∀ a n, P (f r a n) ∨ r.Steady (f · a) n) :
    P ((x r >>= f r) m) ∨ r.Steady (fun r => x r >>= f r) m := by
  cases ends : x r m with
  | value a n =>
      have bind := Eval.bind_of_value (f := f r) ends
      rcases next a n with hp | steady
      · exact .inl (bind ▸ hp)
      · refine .inr fun escape => ?_
        exact (Eval.bind_of_value ((h escape).trans ends)).trans ((steady escape).trans bind.symm)
  | fault e n =>
      refine .inr fun escape => ?_
      exact (Eval.bind_of_fault ((h escape).trans ends)).trans (Eval.bind_of_fault ends).symm
  | exhausted n =>
      refine .inr fun escape => ?_
      exact (Eval.bind_of_exhausted ((h escape).trans ends)).trans
        (Eval.bind_of_exhausted ends).symm

theorem Steady.const (r : Runner) (x : Eval α) (m : Machine) : r.Steady (fun _ => x) m :=
  fun _ => rfl

/-! ## Try -/

theorem attempt_steady (body : List Stmt) (m : Machine) :
    (Eval.attempt (r.block s body) m).holdsUncatchable = true ∨
      r.Steady (fun r => Eval.attempt (r.block s body)) m := by
  rcases r.block_steady s body m with uncatchable | steady
  · refine .inl ?_
    rw [Eval.attempt]
    cases ends : r.block s body m with
    | fault f n =>
        rw [ends] at uncatchable
        exact uncatchable
    | value | exhausted =>
        rw [ends] at uncatchable
        cases uncatchable
  · refine .inr fun escape => ?_
    simp only [Eval.attempt, steady escape]

theorem handle_steady (clause : CatchClause) (f : Fault) (m : Machine) :
    (r.handle s clause f m).holdsUncatchable = true ∨ r.Steady (·.handle s clause f) m := by
  have runs (inner : ScopeId) (n : Machine) :=
    (Steady.const r (bindCaught inner f clause.param) n).andThen
      (P := (·.holdsUncatchable = true)) (f := fun r _ => Eval.attempt (r.block inner clause.body))
      fun _ n => r.attempt_steady inner clause.body n
  exact (Steady.const r (Eval.childScope s) m).andThen (P := (·.holdsUncatchable = true))
    (f := fun r inner => bindCaught inner f clause.param >>= fun _ =>
      Eval.attempt (r.block inner clause.body)) runs

theorem handled_steady (handler : Option CatchClause) (result : Except Fault Completion)
    (m : Machine) :
    (r.handled s handler result m).holdsUncatchable = true ∨
      r.Steady (·.handled s handler result) m := by
  match handler, result with
  | none, _ | some _, .ok _ => exact .inr (.const r _ m)
  | some clause, .error f =>
      simp only [handled]
      cases f.isCatchable with
      | true => exact r.handle_steady s clause f m
      | false => exact .inr (.const r _ m)

/-- A `try` before its finalizer: block, then handler. -/
def pending (block : List Stmt) (handler : Option CatchClause) : Eval (Except Fault Completion) :=
  Eval.attempt (r.block s block) >>= r.handled s handler

/-- A handler does not change a fault that no script can catch. -/
theorem pending_of_uncatchable {block : List Stmt} (handler : Option CatchClause) {f : Fault}
    {m n : Machine} (ends : Eval.attempt (r.block s block) m = .value (.error f) n)
    (uncatchable : f.isCatchable = false) :
    r.pending s block handler m = .value (.error f) n := by
  refine (Eval.bind_of_value ends).trans ?_
  rw [r.handled_of_uncatchable s handler uncatchable]
  rfl

theorem pending_steady (block : List Stmt) (handler : Option CatchClause) (m : Machine) :
    (∃ f n, r.pending s block handler m = .value (.error f) n ∧ f.isCatchable = false) ∨
      r.Steady (·.pending s block handler) m := by
  rcases r.attempt_steady s block m with uncatchable | steady
  · obtain ⟨f, n, ends, hf⟩ := Outcome.exists_of_holdsUncatchable uncatchable
    exact .inl ⟨f, n, r.pending_of_uncatchable s handler ends hf, hf⟩
  · refine (steady.andThen (P := (·.holdsUncatchable = true)) (f := fun r => r.handled s handler)
      fun result n => r.handled_steady s handler result n).imp_left ?_
    exact Outcome.exists_of_holdsUncatchable

theorem finish_error (body : List Stmt) (f : Fault) (m : Machine) :
    r.finish s (some body) (.error f) m = (r.block s body m).thenFault f := by
  show Eval.bind (r.block s body) _ m = _
  rw [Eval.bind]
  cases r.block s body m with
  | value completion n => cases completion <;> rfl
  | fault | exhausted => rfl

theorem finish_steady (body : List Stmt) (result : Except Fault Completion) (m : Machine) :
    (r.finish s (some body) result m).isUncatchable = true ∨
      r.Steady (·.finish s (some body) result) m := by
  rcases r.block_steady s body m with uncatchable | steady
  · refine .inl ?_
    cases ends : r.block s body m with
    | fault f n =>
        rw [ends] at uncatchable
        rw [finish, Eval.bind_of_fault ends]
        exact uncatchable
    | value | exhausted =>
        rw [ends] at uncatchable
        cases uncatchable
  · refine .inr fun escape => ?_
    have same : (r.escaping escape).block s body m = r.block s body m := steady escape
    show Eval.bind ((r.escaping escape).block s body) _ m = Eval.bind (r.block s body) _ m
    rw [Eval.bind, Eval.bind, same]

theorem tryCatch_eq (block : List Stmt) (handler : Option CatchClause)
    (finalizer : Option (List Stmt)) :
    r.tryCatch s block handler finalizer =
      r.pending s block handler >>= r.finish s finalizer := by
  simp only [tryCatch, pending, bind_assoc]

/-- Only a finalizer that does not run to its end changes a fault that no script can catch. -/
theorem tryCatch_steady (block : List Stmt) (handler : Option CatchClause) (body : List Stmt)
    (m : Machine) :
    (r.tryCatch s block handler (some body) m).isUncatchable = true ∨
      r.Steady (·.tryCatch s block handler (some body)) m ∨
      ∃ n, r.tryCatch s block handler (some body) m = r.block s body n ∧
        (r.block s body n).isNormal = false := by
  simp only [tryCatch_eq]
  rcases r.pending_steady s block handler m with ⟨f, n, ends, uncatchable⟩ | steady
  -- The finalizer runs while the fault is pending, and only its normal end brings that back.
  · rw [Eval.bind_of_value ends, finish_error]
    cases finalizer : r.block s body n with
    | value completion n' =>
        cases completion with
        | normal v => exact .inl (by simp [Outcome.thenFault, Outcome.isUncatchable, uncatchable])
        | ret | brk | cont => exact .inr (.inr ⟨n, finalizer.symm, by rw [finalizer]; rfl⟩)
    | fault | exhausted => exact .inr (.inr ⟨n, finalizer.symm, by rw [finalizer]; rfl⟩)
  · have ends := steady.andThen (P := (·.isUncatchable = true))
      (f := fun r => r.finish s (some body)) fun result n => r.finish_steady s body result n
    exact ends.imp_right .inl

end Runner

/-! ## Programs -/

/-- The end of a program whose statements ended with a throw, from the end of the `toString` of the
thrown value.  A fault of that is lost. -/
def Outcome.thenThrown (value : Value) (description : String) (trace : List Frame) :
    Outcome String → Outcome Value
  | .value text m => .fault (.thrown value text trace) m
  | .fault _ m => .fault (.thrown value description trace) m
  | .exhausted m => .exhausted m

namespace Runner

/-- What a program does before its statements run. -/
def prepare (s : ScopeId) (program : Program) : Eval Unit := do
  Eval.startClock
  Eval.hoist s program.body

/-- The end of a program whose statements ended so. -/
def endProgram (r : Runner) : Outcome Completion → Outcome Value
  | .value completion m => programValue completion m
  | .fault f m => (r.renderUncaught f >>= Eval.fail) m
  | .exhausted m => .exhausted m

/-- What a program does once it is prepared. -/
def runPrepared (r : Runner) (s : ScopeId) (program : Program) : Eval Value := fun m =>
  r.endProgram (r.statements s .undefined program.body m)

/-- The statements of a program ended with a throw, and the `toString` of the thrown value with a
fault that no script can catch. -/
def LosesUncatchable (r : Runner) (s : ScopeId) (program : Program) (m : Machine) : Prop :=
  ∃ m₁ value description trace n, prepare s program m = .value () m₁ ∧
    r.statements s .undefined program.body m₁ = .fault (.thrown value description trace) n ∧
    (r.toText value n).isUncatchable = true

variable {r r' : Runner} {s : ScopeId} {program : Program} {m m₁ n : Machine}

theorem evalProgram_eq (r : Runner) (s : ScopeId) (program : Program) :
    r.evalProgram s program = prepare s program >>= fun _ => r.runPrepared s program := by
  rw [evalProgram, prepare, bind_assoc]
  congr 1
  funext _
  congr 1
  funext _ m
  show Eval.bind (Eval.attempt _) _ m = r.endProgram _
  rw [Eval.bind, Eval.attempt]
  cases r.statements s .undefined program.body m <;> rfl

theorem evalProgram_of_prepared (prepared : prepare s program m = .value () m₁) :
    r.evalProgram s program m = r.endProgram (r.statements s .undefined program.body m₁) := by
  rw [evalProgram_eq, Eval.bind_of_value prepared]
  rfl

theorem endProgram_of_uncatchable {f : Fault} (uncatchable : f.isCatchable = false) :
    r.endProgram (.fault f n) = .fault f n := by
  cases f with
  | internal | timeout | invalidTree => rfl
  | _ => cases uncatchable

/-- A program ends with the fault that no script can catch with which its statements ended. -/
theorem evalProgram_of_uncatchable {f : Fault} (uncatchable : f.isCatchable = false)
    (ends : (do
      prepare s program
      r.statements s .undefined program.body) m = .fault f n) :
    r.evalProgram s program m = .fault f n := by
  rw [evalProgram_eq]
  cases prepared : prepare s program m with
  | value _ m₁ =>
      rw [Eval.bind_of_value prepared] at ends ⊢
      rw [runPrepared, ends, endProgram_of_uncatchable uncatchable]
  | fault f' n' =>
      rw [Eval.bind_of_fault prepared] at ends ⊢
      cases ends
      rfl
  | exhausted n' =>
      rw [Eval.bind_of_exhausted prepared] at ends
      cases ends

theorem endProgram_thrown (value : Value) (description : String) (trace : List Frame) :
    r.endProgram (.fault (.thrown value description trace) n) =
      (r.toText value n).thenThrown value description trace := by
  show Eval.bind (Eval.bind (Eval.attempt (r.toText value)) _) Eval.fail n = _
  rw [Eval.bind, Eval.bind, Eval.attempt]
  cases r.toText value n <;> rfl

section Pair

variable {finalizers : Prop} (h : (Slack.uncatchable finalizers).Pair r r')
include h

/-- From statements that ended alike, two runners in lockstep end a program alike, unless the first
ends it with a fault that no script can catch or loses one. -/
theorem endProgram_of_ends {o o' : Outcome Completion}
    (ends : (Slack.uncatchable finalizers).Ends Eq o o') :
    (r.endProgram o).isUncatchable = true ∨ r'.endProgram o' = r.endProgram o ∨
      ∃ value description trace n, o = .fault (.thrown value description trace) n ∧
        (r.toText value n).isUncatchable = true := by
  cases ends with
  | value same alike =>
      cases same
      rw [alike.eq id]
      exact .inr (.inl rfl)
  | exhausted alike =>
      rw [alike.eq id]
      exact .inr (.inl rfl)
  | tired h | lagging h => exact h.elim
  | escaped hf =>
      rw [endProgram_of_uncatchable hf]
      exact .inl (Outcome.isUncatchable_fault hf _)
  | @fault f n n' alike =>
      obtain rfl := alike.eq id
      cases f with
      | thrown value description trace =>
          rw [endProgram_thrown, endProgram_thrown]
          rcases (h.toText value n' n' alike).uncatchable with uncatchable | same
          · exact .inr (.inr ⟨value, description, trace, n', rfl, uncatchable⟩)
          · exact .inr (.inl (by rw [same]))
      | _ => exact .inr (.inl rfl)

/-- Of two runners in lockstep, the first ends a program with a fault that no script can catch, or
both end it alike, unless the first loses such a fault. -/
theorem evalProgram_of_pair (s : ScopeId) (program : Program)
    (like : likeStmts (Slack.uncatchable finalizers).toVeil program.body program.body)
    (alike : m.Alike (Slack.uncatchable finalizers).toVeil m) :
    (r.evalProgram s program m).isUncatchable = true ∨
      r'.evalProgram s program m = r.evalProgram s program m ∨ r.LosesUncatchable s program m := by
  have prepares : (Slack.uncatchable finalizers).Same (prepare s program) (prepare s program) :=
    Slack.Sim.startClock.andThen fun _ => Slack.Sim.hoist s like
  have prepared := prepares m m alike
  rw [evalProgram_eq, evalProgram_eq]
  cases ends : prepare s program m with
  | fault f n => exact .inr (.inl (by rw [Eval.bind_of_fault ends, Eval.bind_of_fault ends]))
  | exhausted n =>
      exact .inr (.inl (by rw [Eval.bind_of_exhausted ends, Eval.bind_of_exhausted ends]))
  | value _ m₁ =>
      rw [ends] at prepared
      rw [Eval.bind_of_value ends, Eval.bind_of_value ends, runPrepared, runPrepared]
      cases prepared with
      | value _ alike₁ =>
          refine (endProgram_of_ends h (h.statements s .undefined like m₁ m₁ alike₁)).imp_right
            (.imp_right ?_)
          rintro ⟨value, description, trace, n, ran, uncatchable⟩
          exact ⟨m₁, value, description, trace, n, ends, ran, uncatchable⟩

end Pair

theorem evalProgram_steady (r : Runner) (s : ScopeId) (program : Program) (m : Machine) :
    (r.evalProgram s program m).isUncatchable = true ∨ r.Steady (·.evalProgram s program) m ∨
      r.LosesUncatchable s program m := by
  by_cases lost : r.LosesUncatchable s program m
  · exact .inr (.inr lost)
  · by_cases uncatchable : (r.evalProgram s program m).isUncatchable = true
    · exact .inl uncatchable
    · refine .inr (.inl fun escape => ?_)
      have ends := evalProgram_of_pair ((Slack.Pair.itself r).escaping escape) s program
        (likeStmts_refl trivial _) m.alike_uncatchable
      exact (ends.resolve_left uncatchable).resolve_right lost

end Runner

/-- A `try` whose block ended with a fault that no script can catch ends with it too, whatever its
handler, unless its finalizer does not run to its end: then it ends as the finalizer does.  No other
construct changes such a fault: a task ends with one, or nothing that it ran did.

A program ends with such a fault when its statements do.  When they end with a throw, the `toString`
of the value runs, and a fault of that is lost, of whatever kind.  That and finalizers are all that
keeps such a fault from the embedder: a program ends with one, or nothing that it ran did, or its
`toString` lost one; and without finalizers, in the program or on the heap, the same is true of what
ran at any depth. -/
theorem uncatchable_propagates (r : Runner) (s : ScopeId) :
    (∀ block handler m f n, r.block s block m = .fault f n → f.isCatchable = false →
      r.tryCatch s block handler none m = .fault f n ∧
      ∀ body, r.tryCatch s block handler (some body) m = (r.block s body n).thenFault f) ∧
    (∀ {α : Type} (task : Task α) (m : Machine), task.hasFinalizer = false →
      (r.step task m).isUncatchable = true ∨ r.Steady (·.step task) m) ∧
    (∀ block handler body m, (r.tryCatch s block handler (some body) m).isUncatchable = true ∨
      r.Steady (·.tryCatch s block handler (some body)) m ∨
      ∃ n, r.tryCatch s block handler (some body) m = r.block s body n ∧
        (r.block s body n).isNormal = false) ∧
    (∀ program m f n, f.isCatchable = false →
      (do
        Runner.prepare s program
        r.statements s .undefined program.body) m = .fault f n →
      r.evalProgram s program m = .fault f n) ∧
    (∀ program m m₁ value description trace n, Runner.prepare s program m = .value () m₁ →
      r.statements s .undefined program.body m₁ = .fault (.thrown value description trace) n →
      r.evalProgram s program m = (r.toText value n).thenThrown value description trace) ∧
    (∀ program m, (r.evalProgram s program m).isUncatchable = true ∨
      r.Steady (·.evalProgram s program) m ∨ r.LosesUncatchable s program m) ∧
    ∀ (settings : Settings) (fuel : Nat) (escape : (α : Type) → Fault → Eval α)
      (program : Program) (m : Machine), allStmts .finalizerFree program.body = true →
      (∀ o c, (m.object o).kind = .function (.closure c) → c.code.all .finalizerFree = true) →
      ((settings.runner fuel).evalProgram s program m).isUncatchable = true ∨
        (settings.escapingRunner escape fuel).evalProgram s program m =
          (settings.runner fuel).evalProgram s program m ∨
        (settings.runner fuel).LosesUncatchable s program m := by
  refine ⟨fun block handler m f n ends uncatchable => ?_,
    fun task m free => r.step_steady task free m, r.tryCatch_steady s,
    fun program m f n uncatchable => Runner.evalProgram_of_uncatchable uncatchable,
    fun program m m₁ value description trace n prepared ends => ?_, r.evalProgram_steady s,
    fun settings fuel escape program m free closures => ?_⟩
  · have attempt : Eval.attempt (r.block s block) m = .value (.error f) n := by
      rw [Eval.attempt, ends]
    have pending := r.pending_of_uncatchable s handler attempt uncatchable
    simp only [Runner.tryCatch_eq, Eval.bind_of_value pending]
    exact ⟨rfl, fun body => r.finish_error s body f n⟩
  · rw [Runner.evalProgram_of_prepared prepared, ends, Runner.endProgram_thrown]
  · have like : likeStmts (Slack.uncatchable False).toVeil program.body program.body :=
      likeStmts_strict (likeStmts_refl trivial _) free
    exact Runner.evalProgram_of_pair (Slack.pair_escapingRunner settings escape fuel) s program like
      (.of_finalizerFree closures)

/-- The statement `/a/;`, which is an internal fault. -/
def regexStatement : Stmt := .expression (.literal ⟨.null, some ⟨"a", ""⟩, none⟩)

/-- `try { /a/; } catch { } finally { ; }` ends with the internal fault. -/
theorem uncatchable_propagates_regex :
    ∃ f n n', (Settings.standard.runner 9).block ⟨0⟩ [regexStatement] .empty = .fault f n ∧
      f.isCatchable = false ∧
      (Settings.standard.runner 9).tryCatch ⟨0⟩ [regexStatement] (some ⟨none, []⟩)
        (some [.empty]) .empty = .fault f n' := by
  obtain ⟨f, n, ends, uncatchable⟩ : ∃ f n, (Settings.standard.runner 9).block ⟨0⟩
      [regexStatement] .empty = .fault f n ∧ f.isCatchable = false := ⟨_, _, rfl, rfl⟩
  have propagates := uncatchable_propagates (Settings.standard.runner 9) ⟨0⟩
  have finished := (propagates.1 [regexStatement] (some ⟨none, []⟩) .empty f n ends uncatchable).2
    [.empty]
  exact ⟨f, n, _, ends, uncatchable, finished.trans rfl⟩

/-- The prototypes and a scope without bindings. -/
def plainMachine : Machine :=
  { Machine.empty with objects := Realm.prototypes, scopes := #[⟨none, .undefined, .empty⟩] }

/-- `throw { toString: function () { /a/; } };` -/
def throwUnreadable : Program :=
  ⟨[.throw (.object [.property (.ident "toString")
    (.function ⟨none, [], .block [regexStatement], false, false, none⟩) .init false false false])]⟩

/-- `try { /a/; } finally { break; }` ends with the `break`, and a loop around it to its end.  The
program that throws an object whose `toString` is `/a/;` ends with the throw. -/
theorem uncatchable_overridden :
    ((Settings.standard.runner 9).block ⟨0⟩ [regexStatement] .empty).isUncatchable = true ∧
      (∃ n, (Settings.standard.runner 9).tryCatch ⟨0⟩ [regexStatement] none (some [.brk none])
        .empty = .value .brk n) ∧
      (∃ n, (Settings.standard.runner 9).execute ⟨0⟩ (.whileLoop (.literal ⟨.bool true, none, none⟩)
        (.tryCatch [regexStatement] none (some [.brk none]))) .empty =
          .value (.normal .undefined) n) ∧
      (Settings.standard.runner 9).LosesUncatchable ⟨0⟩ throwUnreadable plainMachine ∧
      ∃ value description trace n, (Settings.standard.runner 9).evalProgram ⟨0⟩ throwUnreadable
        plainMachine = .fault (.thrown value description trace) n :=
  ⟨rfl, ⟨_, rfl⟩, ⟨_, rfl⟩, ⟨_, _, _, _, _, rfl, rfl, rfl⟩, _, _, _, _, rfl⟩

end ScriptTree
