import ScriptTree.Proofs.Actions
import ScriptTree.Session

/-!
# The machine that sessions start from

The library is made by primitive actions alone, so making it keeps every discipline that allows its
functions.  What a discipline asks of a machine then holds of the one a session starts from, as soon
as it holds of the machine that has the prototypes and nothing else.
-/

namespace ScriptTree

namespace Discipline.Lawful

variable {D : Discipline} (law : D.Lawful) (builtins : ∀ b, D.builtin b)
include law builtins

theorem addMethods {fp : Footprint} {o : ObjectId} :
    ∀ {w : D.World} (methods : List Builtin), D.value w (.object o) →
      D.Keeps fp w (Realm.addMethods o methods) (Realm.addMethods o methods) fun _ _ => True
  | _, [], _ => law.pure trivial
  | w, builtin :: rest, ho => by
      have callable : D.callable w (.builtin builtin) := builtins builtin
      refine law.bind (law.createFunction callable) fun function w₁ h₁ hf => ?_
      have ho₁ := law.value_mono h₁ ho
      refine law.bind (law.define _ ho₁ (law.slot_value hf)) fun _ w₂ h₂ _ => ?_
      exact addMethods rest (law.value_mono h₂ ho₁)

variable {fp : Footprint} {w : D.World}

theorem addBuiltin (builtin : Builtin) :
    D.Keeps fp w (Eval.createFunction (.builtin builtin)) (Eval.createFunction (.builtin builtin))
      fun w' o => D.value w' (.object o) :=
  have callable : D.callable w (.builtin builtin) := builtins builtin
  (law.createFunction callable).post fun _ _ _ => law.slot_value

theorem addConstructor {prototype : ObjectId} (builtin : Builtin) (hp : prototype.index < 10) :
    D.Keeps fp w (Realm.addConstructor builtin prototype) (Realm.addConstructor builtin prototype)
      fun w' o => D.value w' (.object o) := by
  refine law.bind (law.addBuiltin builtins builtin) fun function w₁ _ hf => ?_
  refine law.bind (law.joinPrototype hf (law.intrinsic_ok _ _ hp)) fun _ w₂ h₂ _ => ?_
  exact law.pure (law.value_mono h₂ hf)

theorem addError (kind : ErrorKind) :
    D.Keeps fp w (Realm.addError kind) (Realm.addError kind)
      fun w' o => D.value w' (.object o) := by
  have hp : kind.prototype.index < 10 := by cases kind <;> decide
  refine law.bind (law.define _ (law.intrinsic_ok _ _ hp) (law.primitive_ok _ _)) fun _ w₁ _ _ => ?_
  refine law.bind (law.define _ (law.intrinsic_ok _ _ hp) (law.primitive_ok _ _)) fun _ w₂ _ _ => ?_
  exact law.addConstructor builtins _ hp

omit builtins in
/-- Makes one more object, besides those that were made. -/
theorem bind_made {β : Type} {Q : D.World → β → Prop} {made : List ObjectId} {x y : Eval ObjectId}
    {f g : ObjectId → Eval β} (hm : ∀ o ∈ made, D.value w (.object o))
    (hx : D.Keeps fp w x y fun w' o => D.value w' (.object o))
    (hf : ∀ o w', (∀ p ∈ o :: made, D.value w' (.object p)) → D.Keeps fp w' (f o) (g o) Q) :
    D.Keeps fp w (x >>= f) (y >>= g) Q :=
  law.bind hx fun o w' hw ho => hf o w' fun p hp => by
    rcases List.mem_cons.mp hp with rfl | hp
    · exact ho
    · exact law.value_mono hw (hm p hp)

/-- Adds methods, and keeps the objects that were made. -/
theorem bind_methods {β : Type} {Q : D.World → β → Prop} {made : List ObjectId} {o : ObjectId}
    {f g : Eval β} (methods : List Builtin) (hm : ∀ o ∈ made, D.value w (.object o))
    (ho : D.value w (.object o))
    (hf : ∀ w', (∀ p ∈ made, D.value w' (.object p)) → D.Keeps fp w' f g Q) :
    D.Keeps fp w (Realm.addMethods o methods >>= fun _ => f)
      (Realm.addMethods o methods >>= fun _ => g) Q :=
  law.bind (law.addMethods builtins methods ho) fun _ w' hw _ =>
    hf w' fun p hp => law.value_mono hw (hm p hp)

/-- Making the library keeps a discipline that allows its functions. -/
theorem install :
    D.Keeps fp w Realm.install Realm.install fun w' globals =>
      ∀ entry ∈ globals, D.value w' entry.2.value := by
  have prototype {w : D.World} {o : ObjectId} (ho : o.index < 10) : D.value w (.object o) :=
    law.intrinsic_ok w o ho
  have made : ∀ o ∈ ([] : List ObjectId), D.value w (.object o) := fun _ h => nomatch h
  refine law.bind_methods builtins _ made (prototype (by decide)) fun w made => ?_
  refine law.bind_made made (law.addConstructor builtins _ (by decide)) fun object w made => ?_
  refine law.bind_methods builtins _ made (made object List.mem_cons_self) fun w made => ?_
  refine law.bind_methods builtins _ made (prototype (by decide)) fun w made => ?_
  refine law.bind_made made (law.addConstructor builtins _ (by decide)) fun function w made => ?_
  refine law.bind_made made (law.addConstructor builtins _ (by decide)) fun array w made => ?_
  refine law.bind_methods builtins _ made (prototype (by decide)) fun w made => ?_
  refine law.bind_made made (law.addConstructor builtins _ (by decide)) fun string w made => ?_
  refine law.bind_methods builtins _ made (prototype (by decide)) fun w made => ?_
  refine law.bind_made made (law.addConstructor builtins _ (by decide)) fun number w made => ?_
  refine law.bind_methods builtins _ made (prototype (by decide)) fun w made => ?_
  refine law.bind_made made (law.addConstructor builtins _ (by decide)) fun boolean w made => ?_
  refine law.bind_made made (law.addBuiltin builtins _) fun symbol w made => ?_
  refine law.bind_methods builtins _ made (prototype (by decide)) fun w made => ?_
  refine law.bind_made made (law.addError builtins _) fun error w made => ?_
  refine law.bind_made made (law.addError builtins _) fun typeError w made => ?_
  refine law.bind_made made (law.addError builtins _) fun referenceError w made => ?_
  refine law.bind_made made (law.addError builtins _) fun rangeError w made => ?_
  refine law.bind_made made (law.addBuiltin builtins _) fun log w made => ?_
  refine law.bind_made made law.createObject fun console w made => ?_
  refine law.bind_methods builtins _ made (made console List.mem_cons_self) fun w made => ?_
  refine law.pure ?_
  have undefined := law.primitive_ok w .undefined
  have number := fun x => law.primitive_ok w (.number x)
  simp only [List.forall_mem_cons] at made
  simp only [Realm.variableEntry, Realm.constantEntry, List.forall_mem_cons]
  grind

/-- The machine that sessions start from has a world, if the machine of the prototypes has one. -/
theorem realm (hw : D.machine w = { Machine.empty with objects := Realm.prototypes }) :
    ∃ w', D.machine w' = Realm.machine ∧ ∀ entry ∈ Realm.globals, D.value w' entry.2.value := by
  have installs : D.Keeps .nothing w Realm.install Realm.install fun w' globals =>
      ∀ entry ∈ globals, D.value w' entry.2.value := law.install builtins
  rw [Realm.machine, Realm.globals, Realm.installed, ← hw]
  cases installs with
  | value w' globals _ left _ values =>
      rw [left]
      exact ⟨w', rfl, values⟩
  | fault w' f _ left _ _ =>
      rw [left]
      exact ⟨w', rfl, fun _ h => nomatch h⟩
  | exhausted w' _ left _ _ =>
      rw [left]
      exact ⟨w', rfl, fun _ h => nomatch h⟩

end Discipline.Lawful

/-- A new session has the library and one scope. -/
theorem Session.start_machine (settings : Settings) (setup : GlobalSetup) :
    (start settings (pure setup)).machine = { Realm.machine with
      scopes := Realm.machine.scopes.push ⟨none, setup.receiver, .ofList (Realm.globals ++
        setup.extras.map fun entry => (entry.1, ⟨entry.2, true⟩))⟩ } :=
  rfl

end ScriptTree
