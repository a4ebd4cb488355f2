import ScriptTree.Proofs.CallStack
import ScriptTree.Proofs.Propagation
import ScriptTree.Proofs.ScopeFrame

/-!
# When finalizers run

The rule for finalizers: whatever has become of the block of a `try`, and of its handler if there is
one for it, the finalizer runs after it, once and in a scope of its own.  When it runs to its end,
the `try` ends as block and handler did, and otherwise as the finalizer did.  `Runner.finalized` is
that rule.

Execution follows the rule with one exception (`finalizer_runs_iff`).  A handler whose parameter is
not a plain name ends the statement where the parameter should be bound, and the finalizer is
skipped.
-/

namespace ScriptTree

/-! ## The rule -/

/-- The machine with a scope opened inside `s`. -/
def Machine.withChild (m : Machine) (s : ScopeId) : Machine :=
  { m with scopes := m.scopes.push ⟨some s, (m.scope s).receiver, .empty⟩ }

/-- What a `try` ends with when its finalizer has ended so, and block and handler with `result`. -/
def Outcome.finalize (result : Except Fault Completion) : Outcome Completion → Outcome Completion
  | .value (.normal _) m =>
      match result with
      | .ok completion => .value completion m
      | .error f => .fault f m
  | outcome => outcome

namespace Runner

/-- Runs a catch clause for a fault.  It ends with a fault when its body does, and also when its
parameter cannot be bound. -/
def caught (r : Runner) (s : ScopeId) (clause : CatchClause) (f : Fault) :
    Eval (Except Fault Completion) :=
  Eval.attempt do
    let inner ← Eval.childScope s
    bindCaught inner f clause.param
    r.block inner clause.body

/-- What a block ends with, and its handler if it has one for that. -/
def settled (r : Runner) (s : ScopeId) (block : List Stmt) (handler : Option CatchClause) :
    Eval (Except Fault Completion) := do
  match handler, ← Eval.attempt (r.block s block) with
  | some clause, .error f => if f.isCatchable then r.caught s clause f else pure (.error f)
  | _, result => pure result

/-- A `try` with a finalizer, by the rule. -/
def finalized (r : Runner) (s : ScopeId) (block : List Stmt) (handler : Option CatchClause)
    (body : List Stmt) : Eval Completion := fun m =>
  match r.settled s block handler m with
  | .value result n =>
      (r.statements ⟨n.scopes.size⟩ .undefined body (n.withChild s)).finalize result
  | .fault f n => .fault f n
  | .exhausted n => .exhausted n

/-! ## Where execution follows it -/

variable (r : Runner) (s : ScopeId)

/-- A finalizer settles what is pending as the rule says. -/
theorem finish_eq (body : List Stmt) (result : Except Fault Completion) (m : Machine) :
    r.finish s (some body) result m =
      (r.statements ⟨m.scopes.size⟩ .undefined body (m.withChild s)).finalize result := by
  have opened : r.block s body m =
      r.statements ⟨m.scopes.size⟩ .undefined body (m.withChild s) := rfl
  rw [finish, ← opened]
  cases ends : r.block s body m with
  | value completion n =>
      rw [Eval.bind_of_value ends]
      cases completion with
      | normal v => cases result <;> rfl
      | ret | brk | cont => rfl
  | fault f n => exact Eval.bind_of_fault ends
  | exhausted n => exact Eval.bind_of_exhausted ends

/-- A plain name can always be bound. -/
theorem bindCaught_value (f : Fault) {clause : CatchClause}
    (plain : CatchClause.isSupported (some clause) = true) (m : Machine) :
    ∃ m', bindCaught s f clause.param m = .value () m' := by
  obtain ⟨param, body⟩ := clause
  cases param with
  | none => exact ⟨m, rfl⟩
  | some pattern =>
      cases pattern with
      | ident name => cases f <;> exact ⟨_, rfl⟩
      | default target value => cases plain
      | rest target => cases plain
      | unsupported => cases plain

/-- A clause whose parameter can be bound ends with a fault only if its body does. -/
theorem handle_eq_caught (f : Fault) {clause : CatchClause}
    (plain : CatchClause.isSupported (some clause) = true) :
    r.handle s clause f = r.caught s clause f := by
  funext m
  have opened : Eval.childScope s m = .value ⟨m.scopes.size⟩ (m.withChild s) := rfl
  obtain ⟨m', bound⟩ := bindCaught_value ⟨m.scopes.size⟩ f plain (m.withChild s)
  have whole : (do
      let inner ← Eval.childScope s
      bindCaught inner f clause.param
      r.block inner clause.body) m = r.block ⟨m.scopes.size⟩ clause.body m' :=
    (Eval.bind_of_value opened).trans (Eval.bind_of_value bound)
  calc r.handle s clause f m
      = Eval.attempt (r.block ⟨m.scopes.size⟩ clause.body) m' :=
        (Eval.bind_of_value opened).trans (Eval.bind_of_value bound)
    _ = r.caught s clause f m := by rw [caught, Eval.attempt, Eval.attempt, whole]

/-- Block and handler end as the rule says unless the parameter of the handler is in the way. -/
theorem pending_eq_settled (block : List Stmt) (handler : Option CatchClause) (m : Machine)
    (plain : ∀ f n, r.block s block m = .fault f n → f.isCatchable = true →
      CatchClause.isSupported handler = true) :
    r.pending s block handler m = r.settled s block handler m := by
  cases ends : r.block s block m with
  | value completion n =>
      have attempt : Eval.attempt (r.block s block) m = .value (.ok completion) n := by
        rw [Eval.attempt, ends]
      rw [pending, settled, Eval.bind_of_value attempt, Eval.bind_of_value attempt]
      cases handler <;> rfl
  | exhausted n =>
      have attempt : Eval.attempt (r.block s block) m = .exhausted n := by
        rw [Eval.attempt, ends]
      rw [pending, settled, Eval.bind_of_exhausted attempt, Eval.bind_of_exhausted attempt]
  | fault f n =>
      have attempt : Eval.attempt (r.block s block) m = .value (.error f) n := by
        rw [Eval.attempt, ends]
      rw [pending, settled, Eval.bind_of_value attempt, Eval.bind_of_value attempt]
      cases handler with
      | none => rfl
      | some clause =>
          simp only [handled]
          split
          next catchable => rw [r.handle_eq_caught s f (plain f n ends catchable)]
          next => rfl

theorem tryCatch_eq_finalized (block : List Stmt) (handler : Option CatchClause)
    (body : List Stmt) (m : Machine)
    (plain : ∀ f n, r.block s block m = .fault f n → f.isCatchable = true →
      CatchClause.isSupported handler = true) :
    r.tryCatch s block handler (some body) m = r.finalized s block handler body m := by
  rw [tryCatch_eq, finalized, ← r.pending_eq_settled s block handler m plain]
  cases ends : r.pending s block handler m with
  | value result n => exact (Eval.bind_of_value ends).trans (r.finish_eq s body result n)
  | fault f n => exact Eval.bind_of_fault ends
  | exhausted n => exact Eval.bind_of_exhausted ends

/-! ## Where it does not -/

/-- The fault of a catch clause whose parameter is not a plain name. -/
def unboundCaught (m : Machine) : Fault :=
  .internal "Unsupported syntax: destructuring catch parameter" m.stack

theorem bindCaught_fault (f : Fault) {clause : CatchClause}
    (notPlain : CatchClause.isSupported (some clause) = false) (m : Machine) :
    bindCaught s f clause.param m = .fault (unboundCaught m) m := by
  obtain ⟨param, body⟩ := clause
  cases param with
  | none => cases notPlain
  | some pattern =>
      cases pattern with
      | ident name => cases notPlain
      | default target value => rfl
      | rest target => rfl
      | unsupported => rfl

variable {block : List Stmt} {clause : CatchClause} {f : Fault} {m n : Machine}

/-- Without a plain name to bind, a `try` ends before its finalizer. -/
theorem tryCatch_of_not_plain (ends : r.block s block m = .fault f n)
    (catchable : f.isCatchable = true)
    (notPlain : CatchClause.isSupported (some clause) = false) (finalizer : Option (List Stmt)) :
    r.tryCatch s block (some clause) finalizer m =
      .fault (unboundCaught n) (n.withChild s) := by
  have attempt : Eval.attempt (r.block s block) m = .value (.error f) n := by
    rw [Eval.attempt, ends]
  have opened : Eval.childScope s n = .value ⟨n.scopes.size⟩ (n.withChild s) := rfl
  have handled : r.handled s (some clause) (.error f) n =
      .fault (unboundCaught n) (n.withChild s) := by
    rw [Runner.handled, if_pos catchable]
    refine (Eval.bind_of_value opened).trans ?_
    exact Eval.bind_of_fault (bindCaught_fault ⟨n.scopes.size⟩ f notPlain (n.withChild s))
  exact (Eval.bind_of_value attempt).trans (Eval.bind_of_fault handled)

/-- By the rule the finalizer runs after the fault of the parameter. -/
theorem finalized_of_not_plain (ends : r.block s block m = .fault f n)
    (catchable : f.isCatchable = true)
    (notPlain : CatchClause.isSupported (some clause) = false) (body : List Stmt) :
    r.finalized s block (some clause) body m =
      (r.statements ⟨n.scopes.size + 1⟩ .undefined body
        ((n.withChild s).withChild s)).finalize (.error (unboundCaught n)) := by
  have attempt : Eval.attempt (r.block s block) m = .value (.error f) n := by
    rw [Eval.attempt, ends]
  have opened : Eval.childScope s n = .value ⟨n.scopes.size⟩ (n.withChild s) := rfl
  have unbound : (do
      let inner ← Eval.childScope s
      bindCaught inner f clause.param
      r.block inner clause.body) n = .fault (unboundCaught n) (n.withChild s) :=
    (Eval.bind_of_value opened).trans
      (Eval.bind_of_fault (bindCaught_fault ⟨n.scopes.size⟩ f notPlain (n.withChild s)))
  have caught : r.caught s clause f n =
      .value (.error (unboundCaught n)) (n.withChild s) := by
    rw [Runner.caught, Eval.attempt, unbound]
  have settled : r.settled s block (some clause) m =
      .value (.error (unboundCaught n)) (n.withChild s) := by
    refine (Eval.bind_of_value attempt).trans ?_
    simp only [catchable, if_true, caught]
  have size : (n.withChild s).scopes.size = n.scopes.size + 1 := Array.size_push _
  rw [finalized, settled]
  simp only [size]

end Runner

theorem Outcome.finalize_machine (result : Except Fault Completion)
    (outcome : Outcome Completion) : (outcome.finalize result).machine = outcome.machine := by
  cases outcome with
  | value completion m =>
      cases completion with
      | normal v => cases result <;> rfl
      | ret | brk | cont => rfl
  | fault f m => rfl
  | exhausted m => rfl

/-- Statements take no scope away. -/
theorem statements_scopes_le (settings : Settings) (fuel : Nat) (s : ScopeId) (body : List Stmt)
    (m : Machine) : m.scopes.size ≤
      ((settings.runner fuel).statements s .undefined body m).machine.scopes.size := by
  obtain ⟨m', kept, ends⟩ := Discipline.scopes_lawful.perform (Discipline.scopes_agree settings)
    fuel (.statements body s) (w := m) (Discipline.scopes_carefree.requests fun _ _ => trivial)
  have same : ((settings.runner fuel).statements s .undefined body m).machine = m' := ends
  rw [same]
  exact kept.size

/-- A `try` with a finalizer does what the rule says exactly when the parameter of its handler is a
plain name, if it has to be bound at all.  If it is not, the statement ends with that fault and the
machine as it was before the finalizer. -/
theorem finalizer_runs_iff (settings : Settings) (fuel : Nat) (s : ScopeId) (block : List Stmt)
    (handler : Option CatchClause) (body : List Stmt) (m : Machine) :
    let r := settings.runner fuel
    (r.tryCatch s block handler (some body) m = r.finalized s block handler body m ↔
      ∀ f n, r.block s block m = .fault f n → f.isCatchable = true →
        CatchClause.isSupported handler = true) ∧
    ∀ f n, r.block s block m = .fault f n → f.isCatchable = true →
      CatchClause.isSupported handler = false →
      r.tryCatch s block handler (some body) m =
        .fault (.internal "Unsupported syntax: destructuring catch parameter" n.stack)
          (n.withChild s) := by
  intro r
  -- a handler that is not supported is there
  have clauseOf (h : CatchClause.isSupported handler = false) : ∃ clause, handler = some clause := by
    cases handler with
    | none => cases h
    | some clause => exact ⟨clause, rfl⟩
  constructor
  · constructor
    · intro same f n ends catchable
      refine Bool.of_not_eq_false fun notPlain => ?_
      obtain ⟨clause, rfl⟩ := clauseOf notPlain
      rw [r.tryCatch_of_not_plain s ends catchable notPlain,
        r.finalized_of_not_plain s ends catchable notPlain] at same
      -- the finalizer would have opened one more scope
      have machines : n.withChild s = (r.statements ⟨n.scopes.size + 1⟩ .undefined body
          ((n.withChild s).withChild s)).machine :=
        (congrArg Outcome.machine same).trans (Outcome.finalize_machine ..)
      have grown := statements_scopes_le settings fuel ⟨n.scopes.size + 1⟩ body
        ((n.withChild s).withChild s)
      rw [← machines] at grown
      simp only [Machine.withChild, Array.size_push] at grown
      omega
    · intro plain
      exact r.tryCatch_eq_finalized s block handler body m plain
  · intro f n ends catchable notPlain
    obtain ⟨clause, rfl⟩ := clauseOf notPlain
    exact r.tryCatch_of_not_plain s ends catchable notPlain (some body)

/-- `try { throw null; } catch ({ .. }) { } finally { return; }` ends with an internal fault and not
with the `return` of its finalizer. -/
theorem finalizer_skipped_by_pattern :
    let r := Settings.standard.runner 9
    let block : List Stmt := [.throw (.literal ⟨.null, none, none⟩)]
    let handler : Option CatchClause := some ⟨some .unsupported, []⟩
    (∃ n, r.tryCatch ⟨0⟩ block handler (some [.ret none]) .empty =
      .fault (.internal "Unsupported syntax: destructuring catch parameter" []) n) ∧
    ∃ n, r.finalized ⟨0⟩ block handler [.ret none] .empty = .value (.ret .undefined) n :=
  ⟨⟨_, rfl⟩, _, rfl⟩

end ScriptTree
