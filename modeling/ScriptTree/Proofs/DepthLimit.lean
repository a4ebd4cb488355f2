import ScriptTree.Proofs.CallStack

/-!
# The limit on active calls

A call that is refused for the depth ends with a fault that a script can catch, so a higher limit
may change all that comes after it.  But as long as no call is refused the limit is not seen: with
any higher one everything is the same (`raised_limit_unseen`).

That no call is refused is about moments inside an evaluation.  We say it with a strict interpreter,
which does not go on after the first refusal.  It leaves a note as the last line of the console and
is exhausted, and no script can catch that.
-/

namespace ScriptTree

/-! ## The strict interpreter -/

/-- Stops with a note on the console when as many calls are active as may be. -/
def Eval.stopAtDepth (settings : Settings) (note : Line) : Eval Unit := fun m =>
  if settings.maxCallDepth ≤ m.stack.length then
    .exhausted { m with console := m.console.push note }
  else .value () m

/-- Runs one task, and stops where a call is refused for the depth. -/
def Runner.strictStep (r : Runner) (note : Line) : {α : Type} → Task α → Eval α
  | _, .eval e s => r.evaluate s e
  | _, .exec stmt s => r.execute s stmt
  | _, .call callee receiver arguments target => do
      let callable ← r.allowBy (Eval.stopAtDepth r.settings note) callee target
      Eval.withFrame ⟨callable.name?, callable.position?⟩
        (r.enter callable receiver arguments target)

/-- Runs a task, and every task below it, up to the first call that is refused for the depth. -/
def strictRun (settings : Settings) (note : Line) : Nat → {α : Type} → Task α → Eval α
  | 0, _, _ => Eval.exhausted
  | fuel + 1, _, task => Runner.strictStep ⟨settings, fuel, strictRun settings note fuel⟩ note task

/-- The runner that stops at the first refusal. -/
def Settings.strictRunner (settings : Settings) (note : Line) (fuel : Nat) : Runner :=
  ⟨settings, fuel, strictRun settings note fuel⟩

/-- Some call of the operation is refused for the depth: the strict interpreter stops, and whatever
its note is, the note is the last line. -/
def Settings.Refuses (settings : Settings) (fuel : Nat) {α : Type} (op : Operation α)
    (m : Machine) : Prop :=
  ∀ note, ∃ m', op.perform (settings.strictRunner note fuel) m = .exhausted m' ∧
    m'.console.back? = some note

/-! ## Strict runs beside runs with a higher limit -/

namespace Discipline

/-- The companion ends as the strict interpreter does, unless that has left its note. -/
def noted (note : Line) : Discipline :=
  balanced (fun _ => True) fun console => console.back? ≠ some note

variable {settings : Settings} {limit : Nat} {note : Line}

theorem noted_agree (settings : Settings) (limit : Nat) :
    (noted note).AgreeInside settings { settings with maxCallDepth := limit } :=
  -- neither the clock nor the console is asked for the limit
  have agree : (noted note).Agree settings settings := balanced_agree fun _ _ => trivial
  { checkTimeout := agree.checkTimeout
    print := agree.print }

/-- What passes under a limit passes under a higher one. -/
theorem noted_checkDepth (h : settings.maxCallDepth ≤ limit) (w : (noted note).World) :
    (noted note).Keeps .nothing w (Eval.stopAtDepth settings note)
      (Eval.checkDepth { settings with maxCallDepth := limit })
      fun w' _ => (noted note).mayEnter w' := by
  by_cases deep : settings.maxCallDepth ≤ w.val.stack.length
  · let stopped : (noted note).World :=
      ⟨{ w.val with console := w.val.console.push note }, trivial⟩
    have last : stopped.val.console.back? = some note := Array.back?_push
    refine .exhausted stopped rfl (if_pos deep) trivial ?_
    intro other
    exact absurd last other
  · have passes : ¬limit ≤ w.val.stack.length := by omega
    exact .value w () rfl (if_neg deep) (if_neg passes) trivial

theorem Matches.strictStep {k : Nat} {r r' : Runner} (runs : (noted note).Matches k r r')
    (settings' : r'.settings = { r.settings with maxCallDepth := limit })
    (h : r.settings.maxCallDepth ≤ limit) {α : Type} (task : Task α) (w : (noted note).World)
    (admitted : (noted note).Admits (k + 1) w task) :
    (noted note).Keeps task.footprint w (r.strictStep note task) (r'.step task)
      ((noted note).Answers task) := by
  cases task with
  | eval e s => exact runs.evaluate admitted.1 admitted.2
  | exec stmt s =>
      obtain ⟨fits, hs, ready⟩ := admitted
      exact runs.execute fits hs ready fun declares => if_pos declares
  | call callee receiver arguments target =>
      have checks (w : (noted note).World) :
          (noted note).Keeps .nothing w (Eval.stopAtDepth r.settings note)
            (Eval.checkDepth r'.settings) fun w' _ => (noted note).mayEnter w' := by
        rw [settings']
        exact noted_checkDepth h w
      refine runs.law.bind (runs.allowBy checks callee target) ?_
      rintro callable w₁ h₁ ⟨hc, may⟩
      refine runs.law.withFrame (k := k) may trivial ?_
      intro w₂ enters
      exact runs.enter (enters.callable hc) trivial (fun _ _ => trivial) (fun _ _ => trivial) rfl
        enters.calls enters.room

/-- The strict interpreter and the one with a higher limit do the same up to the first refusal. -/
theorem strict_runner (note : Line) (h : settings.maxCallDepth ≤ limit) (fuel : Nat) :
    (noted note).Matches fuel (settings.strictRunner note fuel)
      (Settings.runner { settings with maxCallDepth := limit } fuel) := by
  have agree : (noted note).AgreeInside settings { settings with maxCallDepth := limit } :=
    noted_agree settings limit
  induction fuel with
  | zero =>
      refine ⟨balanced_lawful, agree, ?_, Nat.le_refl 0, fun _ => rfl⟩
      intro α task w _
      exact .exhausted w rfl rfl trivial fun _ => rfl
  | succ fuel ih =>
      refine ⟨balanced_lawful, agree, ?_, Nat.le_refl _, fun _ => rfl⟩
      intro α task w admitted
      exact ih.strictStep rfl h task w admitted

end Discipline

/-- Without the note on its console, the strict interpreter has ended as any does with a limit that
is not lower. -/
theorem perform_of_not_noted {settings : Settings} {limit : Nat} {note : Line}
    (h : settings.maxCallDepth ≤ limit) {fuel : Nat} {α : Type} {op : Operation α} {m : Machine}
    (unnoted : ∀ m', op.perform (settings.strictRunner note fuel) m = .exhausted m' →
      m'.console.back? ≠ some note) :
    op.perform (Settings.runner { settings with maxCallDepth := limit } fuel) m =
      op.perform (settings.strictRunner note fuel) m := by
  have runs := Discipline.strict_runner note h fuel
  have keeps := runs.perform op ⟨m, trivial⟩
  exact keeps.eq_companion (fun _ => rfl) fun w' ends => unnoted w'.val ends

/-! ## Raising the limit -/

/-- An operation in which no call is refused for the depth ends in the same way, with the same
machine, under every higher limit. -/
theorem raised_limit_unseen (settings : Settings) {limit : Nat}
    (h : settings.maxCallDepth ≤ limit) (fuel : Nat) {α : Type} (op : Operation α) (m : Machine)
    (allowed : ¬settings.Refuses fuel op m) :
    op.perform (Settings.runner { settings with maxCallDepth := limit } fuel) m =
      op.perform (settings.runner fuel) m := by
  simp only [Settings.Refuses, Classical.not_forall, not_exists, not_and] at allowed
  obtain ⟨note, unnoted⟩ := allowed
  -- both sides are what the strict interpreter does with this note
  calc op.perform (Settings.runner { settings with maxCallDepth := limit } fuel) m
      = op.perform (settings.strictRunner note fuel) m := perform_of_not_noted h unnoted
    _ = op.perform (settings.runner fuel) m :=
        (perform_of_not_noted (Nat.le_refl settings.maxCallDepth) unnoted).symm

/-- A machine with the function `f`: `function f(x) { return x ? f(null) : "done"; }`. -/
def twiceMachine : Machine :=
  { Machine.empty with
    objects := #[⟨some .functionPrototype, .empty, .function (.closure
      ⟨some "f", ⟨some "f", [.ident "x"], .block [.ret (some (.conditional (.ident "x")
        (.call (.ident "f") [.literal ⟨.null, none, none⟩])
        (.literal ⟨.string "done", none, none⟩)))], false, false, none⟩, ⟨0⟩, false⟩)⟩]
    scopes := #[⟨none, .undefined, .ofList [("f", ⟨.object ⟨0⟩, true⟩)]⟩] }

theorem raised_limit_unseen_twice :
    let op := Operation.call (.object ⟨0⟩) .undefined [.primitive (.bool true)] none
    Settings.Refuses ⟨1, 0, .record, id⟩ 9 op twiceMachine ∧
      ¬Settings.Refuses ⟨2, 0, .record, id⟩ 9 op twiceMachine ∧
      ∃ m', op.perform (Settings.runner ⟨7, 0, .record, id⟩ 9) twiceMachine =
        .value (.string "done") m' := by
  intro op
  have allowed : ¬Settings.Refuses ⟨2, 0, .record, id⟩ 9 op twiceMachine := by
    intro refuses
    obtain ⟨m', ends, _⟩ := refuses ⟨.log, ""⟩
    cases ends
  have raised : 2 ≤ 7 := by decide
  have same := raised_limit_unseen ⟨2, 0, .record, id⟩ raised 9 op twiceMachine allowed
  exact ⟨fun note => ⟨_, rfl, rfl⟩, allowed, _, same.trans rfl⟩

end ScriptTree
