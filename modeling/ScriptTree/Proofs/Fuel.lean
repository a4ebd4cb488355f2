import ScriptTree.Proofs.CallStack

/-!
# More fuel

An evaluation that ends with some fuel ends in the same way with more
(`Operation.perform_approximates`).  So it makes sense to say what an expression ends in without
naming the fuel (`Settings.EndsIn`), and two expressions are equivalent if they end in the same,
whatever fuel the one or the other needs (`Expr.Equivalent`).
-/

namespace ScriptTree

namespace Eval

variable {α β : Type}

/-! ## Approximation -/

/-- The second action ends as the first one, unless that is exhausted. -/
def Approximates (x y : Eval α) : Prop := ∀ m, (∃ m', x m = .exhausted m') ∨ y m = x m

namespace Approximates

variable {x y : Eval α}

theorem refl (x : Eval α) : x.Approximates x := fun _ => .inr rfl

theorem bind {f g : α → Eval β} (hx : x.Approximates y) (hf : ∀ a, (f a).Approximates (g a)) :
    (x >>= f).Approximates (y >>= g) := by
  intro m
  rcases hx m with ⟨m', tired⟩ | same
  · exact .inl ⟨m', bind_of_exhausted tired⟩
  · cases ends : x m with
    | value a m' =>
        rw [bind_of_value ends, bind_of_value (same.trans ends)]
        exact hf a m'
    | fault f m' => exact .inr ((bind_of_fault (same.trans ends)).trans (bind_of_fault ends).symm)
    | exhausted m' => exact .inl ⟨m', bind_of_exhausted ends⟩

end Approximates

end Eval

/-! ## Runners with more fuel -/

theorem Discipline.Keeps.approximates {α : Type} (fp : Footprint) {x y : Eval α}
    {Q : (balanced (fun _ => True) fun _ => False).World → α → Prop}
    (keeps : ∀ w, (balanced (fun _ => True) fun _ => False).Keeps fp w x y Q) :
    x.Approximates y := by
  intro m
  by_cases tired : ∃ m', x m = .exhausted m'
  · exact .inl tired
  · exact .inr ((keeps ⟨m, trivial⟩).eq_companion (fun _ => rfl)
      fun w' exhausted => tired ⟨w'.val, exhausted⟩)

section

variable (settings : Settings) {fuel fuel' : Nat} (more : fuel ≤ fuel')
include more

/-- Runners with different fuel go the same way until the one with less is exhausted: the companion
is never asked to be in step there. -/
theorem Settings.runner_matches :
    (Discipline.balanced (fun _ => True) fun _ => False).Matches fuel (settings.runner fuel)
      (settings.runner fuel') := by
  have agree : (Discipline.balanced (fun _ => True) fun _ => False).Agree settings settings :=
    Discipline.balanced_agree fun _ _ => trivial
  have never : ¬∃ w, (Discipline.balanced (fun _ => True) fun _ => False).inStep w := by
    rintro ⟨_, step⟩
    exact step
  exact Discipline.balanced_lawful.runner agree more fun step => absurd step never

/-- What an operation ends in is what it ends in with more fuel. -/
theorem Operation.perform_approximates {α : Type} (op : Operation α) :
    (op.perform (settings.runner fuel)).Approximates (op.perform (settings.runner fuel')) :=
  Discipline.Keeps.approximates _ fun w => (settings.runner_matches more).perform op w

theorem applyBinary_approximates (op : BinaryOp) (a b : Value) :
    ((settings.runner fuel).applyBinary op a b).Approximates
      ((settings.runner fuel').applyBinary op a b) :=
  Discipline.Keeps.approximates .nothing fun _ =>
    (settings.runner_matches more).applyBinary op trivial trivial trivial

end

/-! ## Equivalent expressions -/

/-- The expression ends in a value or a fault, in this one, with all fuel from some on. -/
def Settings.EndsIn (settings : Settings) (s : ScopeId) (e : Expr) (m : Machine)
    (outcome : Outcome Value) : Prop :=
  (∀ m', outcome ≠ .exhausted m') ∧
    ∃ fuel, ∀ fuel', fuel ≤ fuel' → run settings fuel' (.eval e s) m = outcome

/-- In every scope of every machine, the expressions end in the same value or fault and leave the
same machine, or neither ends. -/
def Expr.Equivalent (e e' : Expr) : Prop :=
  ∀ (settings : Settings) (s : ScopeId) (m : Machine) (outcome : Outcome Value),
    settings.EndsIn s e m outcome ↔ settings.EndsIn s e' m outcome

/-- An expression that has ended ends so with all fuel that is larger. -/
theorem Settings.endsIn_of_run {settings : Settings} {s : ScopeId} {e : Expr} {m : Machine}
    {outcome : Outcome Value} (fuel : Nat) (ends : run settings fuel (.eval e s) m = outcome)
    (final : ∀ m', outcome ≠ .exhausted m') : settings.EndsIn s e m outcome := by
  refine ⟨final, fuel, ?_⟩
  intro fuel' more
  rcases (Operation.eval e s).perform_approximates settings more m with ⟨m', tired⟩ | same
  · exact absurd (ends.symm.trans tired) (final m')
  · exact same.trans ends

/-- An expression that is approximated by another ends as that one. -/
theorem Settings.EndsIn.of_approximates {settings : Settings} {s : ScopeId} {e e' : Expr}
    {m : Machine} {outcome : Outcome Value} (ends : settings.EndsIn s e m outcome) {a b : Nat}
    (h : ∀ n, (run settings (n + a) (.eval e s)).Approximates (run settings (n + b) (.eval e' s))) :
    settings.EndsIn s e' m outcome := by
  obtain ⟨final, fuel, ends⟩ := ends
  refine ⟨final, fuel + b, ?_⟩
  intro fuel' more
  obtain ⟨n, rfl⟩ : ∃ n, fuel' = n + b := ⟨fuel' - b, by omega⟩
  have first := ends (n + a) (by omega)
  rcases h n m with ⟨m', tired⟩ | same
  · exact absurd (first.symm.trans tired) (final m')
  · exact same.trans first

/-- Expressions that approximate each other, with fuel added to either side. -/
theorem Expr.Equivalent.of_approximates {e e' : Expr} {a b c d : Nat}
    (left : ∀ settings s n,
      (run settings (n + a) (.eval e s)).Approximates (run settings (n + b) (.eval e' s)))
    (right : ∀ settings s n,
      (run settings (n + c) (.eval e' s)).Approximates (run settings (n + d) (.eval e s))) :
    e.Equivalent e' := by
  intro settings s m outcome
  constructor
  · intro ends
    exact ends.of_approximates (left settings s)
  · intro ends
    exact ends.of_approximates (right settings s)

/-- It is enough that the one expression is the other with some more fuel. -/
theorem Expr.Equivalent.of_eq {e e' : Expr} {a b : Nat}
    (same : ∀ settings s n, run settings (n + a) (.eval e s) = run settings (n + b) (.eval e' s)) :
    e.Equivalent e' := by
  apply of_approximates (a := a) (b := b) (c := b) (d := a)
  · intro settings s n
    rw [same]
    exact .refl _
  · intro settings s n
    rw [same]
    exact .refl _

end ScriptTree
