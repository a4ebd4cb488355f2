import ScriptTree.Proofs.Calls

/-!
# Evaluations keep a discipline

The rules of the language keep a discipline when the next tasks do (`Matches.step`), so by induction
on the fuel every run keeps it (`Lawful.runner`).  What a program does is one more rule on top of
runs.
-/

namespace ScriptTree

namespace Discipline

namespace Matches

variable {D : Discipline} {k : Nat} {r r' : Runner} (h : D.Matches k r r') {fp : Footprint}
  {w : D.World} {s : ScopeId}
include h

/-! ## One task -/

theorem apply (agree : D.Agree r.settings r'.settings) {callee receiver : Value}
    {arguments : List Value} {target : Option ObjectId}
    (hr : D.value w receiver) (ha : ∀ v ∈ arguments, D.value w v)
    (ht : ∀ o, target = some o → D.target w o) (hfp : fp.target = target)
    (room : D.room (k + 1) w 0) :
    D.Keeps fp w (r.apply callee receiver arguments target)
      (r'.apply callee receiver arguments target) D.value := by
  refine h.law.bind (h.allow agree callee target) fun callable w₁ h₁ ⟨hc, may⟩ => ?_
  refine h.law.withFrame may (h.law.room_mono h₁ room) fun w₂ enters => ?_
  exact h.enter (enters.callable hc) (enters.value _ (h.law.value_mono h₁ hr))
    (fun v hmem => enters.value v (h.law.value_mono h₁ (ha v hmem)))
    (fun o ho => enters.target o (h.law.target_mono h₁ (ht o ho))) hfp enters.calls enters.room

/-- One task keeps the discipline when the tasks below it do. -/
theorem step (agree : D.Agree r.settings r'.settings) {α : Type} (task : Task α) (w : D.World)
    (admitted : D.Admits (k + 1) w task) :
    D.Keeps task.footprint w (r.step task) (r'.step task) (D.Answers task) := by
  cases task with
  | eval e s => exact h.evaluate admitted.1 admitted.2
  | exec stmt s => exact h.execute admitted.1 admitted.2.1 admitted.2.2 fun hd => if_pos hd
  | call callee receiver arguments target =>
      obtain ⟨_, hr, ha, ht, room⟩ := admitted
      exact h.apply agree hr ha ht rfl room

/-! ## Programs -/

theorem renderUncaught {f : Fault} (hf : D.fault w f) (hw : D.room k w 0) :
    D.Keeps fp w (r.renderUncaught f) (r'.renderUncaught f) D.fault := by
  cases f with
  | thrown value description trace =>
      refine h.law.bind (h.toText (h.law.thrown_value hf) hw).attempt fun result w' hreach _ => ?_
      have hf' := h.law.fault_mono hreach hf
      cases result with
      | ok text => exact h.law.pure (h.law.thrown_text text hf')
      | error _ => exact h.law.pure hf'
  | _ => exact h.law.pure hf

theorem programValue {js : List Jump} {completion : Completion} (hc : D.ends js w completion)
    (supported : D.checks.Refines .supported → js.isEmpty = true) :
    D.Keeps fp w (Runner.programValue completion) (Runner.programValue completion) D.value := by
  have none (refines : D.checks.Refines .supported) {j : Jump} (hj : j ∈ js) : False := by
    rw [List.isEmpty_iff.mp (supported refines)] at hj
    cases hj
  cases completion with
  | normal value => exact h.law.pure hc
  | ret value => exact h.law.internalFault_of fun refines => none refines hc.2
  | brk => exact h.law.internalFault_of fun refines => none refines hc
  | cont => exact h.law.internalFault_of fun refines => none refines hc

theorem evalProgram {program : Program}
    (hp : D.Fits k w (allStmts D.checks program.body) (sizeOf program.body)) (hs : D.scope w s)
    (supported : D.checks.Refines .supported → (jumpsOf program.body).isEmpty = true) :
    D.Keeps ⟨some s, none⟩ w (r.evalProgram s program) (r'.evalProgram s program) D.value := by
  refine h.law.bind h.law.startClock fun _ w₁ h₁ _ => ?_
  have hs₁ := h.law.scope_mono h₁ hs
  refine h.law.bind (h.law.hoist program.body hs₁ rfl) fun _ w₂ h₂ ready => ?_
  have hp₂ := (hp.mono h.law h₁).mono h.law h₂
  refine h.law.bind (h.statements hp₂ (h.law.scope_mono h₂ hs₁) ready rfl
    (h.law.primitive_ok w₂ _)).attempt fun result w₃ h₃ hr => ?_
  cases result with
  | ok completion => exact h.programValue hr supported
  | error f =>
      refine h.law.bind (h.renderUncaught hr (h.law.room_mono h₃ (hp₂.calls h.law))) ?_
      exact fun _ _ _ hf => h.law.fail hf

end Matches

/-! ## All runs -/

theorem Admits.room {D : Discipline} {k : Nat} {w : D.World} {α : Type} {task : Task α}
    (h : D.Admits k w task) : ∃ n, D.room k w n := by
  cases task with
  | eval e s => exact ⟨_, h.1.room⟩
  | exec stmt s => exact ⟨_, h.1.room⟩
  | call callee receiver arguments target => exact ⟨_, h.2.2.2.2⟩

/-- Every run keeps a lawful discipline. -/
theorem Lawful.runner {D : Discipline} (law : D.Lawful) {settings settings' : Settings}
    (agree : D.Agree settings settings') {fuel fuel' : Nat} (hf : fuel ≤ fuel')
    (inStep : (∃ w, D.inStep w) → fuel = fuel') :
    D.Matches fuel (settings.runner fuel) (settings'.runner fuel') := by
  induction fuel generalizing fuel' with
  | zero =>
      refine ⟨law, agree.toAgreeInside, ?_, hf, inStep⟩
      intro α task w admitted
      -- without fuel a task is exhausted, which must be allowed if the task was
      obtain ⟨n, room⟩ := admitted.room
      have may : D.mayExhaust := law.room_zero.resolve_right fun none => none w n room
      refine .exhausted w (law.refl _ w) rfl may fun step => ?_
      cases inStep ⟨w, step⟩
      rfl
  | succ fuel ih =>
      obtain ⟨fuel', rfl⟩ : ∃ m, fuel' = m + 1 := ⟨fuel' - 1, by omega⟩
      have below := ih (Nat.le_of_succ_le_succ hf) fun step => Nat.succ.inj (inStep step)
      exact ⟨law, agree.toAgreeInside, below.step agree, hf, inStep⟩

end Discipline

end ScriptTree
