import ScriptTree.Proofs.Fuel
import ScriptTree.Proofs.OperatorSpellings

/-!
# Compound assignments are their expansions

`x op= e` is `x = (x op e)`, and so for a property `o.k` of a variable or of `this` in the place of
`x`.  `x &&= e` is `x && (x = e)`, and so for the other logical operators
(`compound_assignment_expands`).

The two sides nest to different depths and are compared by what they end in (`Expr.Equivalent`).
For variables an evaluation of the one is an evaluation of the other with one more fuel.  For
properties the expansion lies between two evaluations of the assignment.  It evaluates its target
twice, but nothing comes between the two, and looking at a variable or at `this` changes nothing
(`Eval.Quiet`).
-/

namespace ScriptTree

namespace Eval

variable {α β : Type}

/-! ## Actions that only look -/

/-- However the action ends, it has not changed the machine. -/
def Quiet (x : Eval α) : Prop := ∀ m, (x m).machine = m

namespace Quiet

variable {x : Eval α}

theorem pure (a : α) : Quiet (Pure.pure a) := fun _ => rfl

theorem bind {f : α → Eval β} (hx : x.Quiet) (hf : ∀ a, (f a).Quiet) : (x >>= f).Quiet := by
  intro m
  have same := hx m
  cases ends : x m with
  | value a m' =>
      rw [ends] at same
      rw [bind_of_value ends, hf a m']
      exact same
  | fault f m' =>
      rw [ends] at same
      rw [bind_of_fault ends]
      exact same
  | exhausted m' =>
      rw [ends] at same
      rw [bind_of_exhausted ends]
      exact same

theorem search (f : Machine → Search α) : Quiet (Eval.search f) := by
  intro m
  rw [Eval.search]
  split <;> rfl

theorem lookup (s : ScopeId) (name : String) : Quiet (Eval.lookup s name) := by
  apply bind (search _)
  intro found
  cases found <;> exact pure _

theorem accessKey (r : Runner) (s : ScopeId) (property : Expr) :
    Quiet (r.accessKey s property false) := by
  intro m
  cases property <;> rfl

/-- Looking twice in a row is looking once. -/
theorem twice (h : x.Quiet) (f : α → α → Eval β) :
    (x >>= fun a => x >>= fun a' => f a a') = x >>= fun a => f a a := by
  funext m
  have same := h m
  cases ends : x m with
  | value a m' =>
      rw [ends] at same
      obtain rfl : m' = m := same
      rw [bind_of_value ends, bind_of_value ends, bind_of_value ends]
  | fault f m' => rw [bind_of_fault ends, bind_of_fault ends]
  | exhausted m' => rw [bind_of_exhausted ends, bind_of_exhausted ends]

end Quiet

end Eval

/-! ## Operators -/

/-- A logical assignment leaves its target where the operator would answer with it. -/
theorem AssignOp.skips_logical (op : LogicalOp) (v : Value) :
    (AssignOp.logical op).skips v = op.stopsAt v := by
  cases op <;> rfl

/-! ## Variables -/

theorem run_assign_binary (settings : Settings) (s : ScopeId) (op : CompoundOp) (x : String)
    (e : Expr) (n : Nat) :
    run settings (n + 2) (.eval (.assign (.binary op) (.ident x) e) s) =
      run settings (n + 3) (.eval (.assign .assign (.ident x) (.binary op (.ident x) e)) s) := by
  show (do
    let current ← Eval.lookup s x
    let right ← (settings.runner (n + 1)).eval s e
    let value ← (settings.runner (n + 1)).applyBinary op current right
    Eval.assign s x value
    return value) = (do
    let value ← (do
      let current ← Eval.lookup s x
      let right ← (settings.runner (n + 1)).eval s e
      (settings.runner (n + 1)).applyBinary op current right)
    Eval.assign s x value
    return value)
  simp only [bind_assoc]

theorem run_assign_logical (settings : Settings) (s : ScopeId) (op : LogicalOp) (x : String)
    (e : Expr) (n : Nat) :
    run settings (n + 1) (.eval (.assign (.logical op) (.ident x) e) s) =
      run settings (n + 2) (.eval (.logical op (.ident x) (.assign .assign (.ident x) e)) s) := by
  show (do
    let current ← Eval.lookup s x
    if AssignOp.skips (.logical op) current then return current
    else
      let value ← (settings.runner n).evalNamed s x e
      Eval.assign s x value
      return value) = _
  simp only [AssignOp.skips_logical]
  rfl

/-! ## Properties -/

namespace Runner

/-- The object and the key of a property. -/
def place (r : Runner) (s : ScopeId) (object property : Expr) : Eval (Value × String) := do
  let object ← r.eval s object
  let key ← r.accessKey s property false
  return (object, key)

/-- Reads a place, combines what it holds with an operand and writes the result there, each with a
runner of its own. -/
def updateAt (place : Eval (Value × String)) (reader combiner writer : Runner) (s : ScopeId)
    (op : BinaryOp) (e : Expr) : Eval Value := do
  let target ← place
  let current ← reader.getProperty target.1 target.2
  let right ← combiner.eval s e
  let value ← combiner.applyBinary op current right
  writer.setProperty target.1 target.2 value
  return value

end Runner

section

variable (settings : Settings) (s : ScopeId) (op : CompoundOp) (object property e : Expr)

theorem run_assign_property (n : Nat) :
    run settings (n + 1) (.eval (.assign (.binary op) (.access object property false) e) s) =
      Runner.updateAt ((settings.runner n).place s object property) (settings.runner n)
        (settings.runner n) (settings.runner n) s op e := by
  simp only [Runner.updateAt, Runner.place, bind_assoc, pure_bind]
  rfl

/-- The expansion evaluates its target twice in a row, and reads with the least fuel. -/
theorem run_assign_expanded (n : Nat) :
    run settings (n + 3) (.eval (.assign .assign (.access object property false)
        (.binary op (.access object property false) e)) s) = (do
      let target ← (settings.runner (n + 2)).place s object property
      let source ← (settings.runner n).place s object property
      let current ← (settings.runner n).getProperty source.1 source.2
      let right ← (settings.runner (n + 1)).eval s e
      let value ← (settings.runner (n + 1)).applyBinary op current right
      (settings.runner (n + 2)).setProperty target.1 target.2 value
      return value) := by
  show (do
    let object₁ ← (settings.runner (n + 2)).eval s object
    let key₁ ← (settings.runner (n + 2)).accessKey s property false
    let value ← (do
      let current ← (do
        let object₂ ← (settings.runner n).eval s object
        let key₂ ← (settings.runner n).accessKey s property false
        (settings.runner n).getProperty object₂ key₂)
      let right ← (settings.runner (n + 1)).eval s e
      (settings.runner (n + 1)).applyBinary op current right)
    (settings.runner (n + 2)).setProperty object₁ key₁ value
    return value) = _
  simp only [Runner.place, bind_assoc, pure_bind]

variable {object}

/-- Looking at a variable or at `this` takes one fuel and changes nothing. -/
theorem exists_quiet_place (simple : object = .this ∨ ∃ x, object = .ident x) :
    ∃ place : Eval (Value × String), place.Quiet ∧
      ∀ n, (settings.runner (n + 1)).place s object property = place := by
  have quiet {x : Eval Value} (hx : x.Quiet) : Eval.Quiet (do
      let object ← x
      let key ← (settings.runner 0).accessKey s property false
      return (object, key)) := by
    apply hx.bind
    intro object
    apply Eval.Quiet.bind (.accessKey _ s property)
    intro key
    exact .pure _
  rcases simple with rfl | ⟨x, rfl⟩
  · exact ⟨_, quiet fun _ => rfl, fun _ => rfl⟩
  · exact ⟨_, quiet (.lookup s x), fun _ => rfl⟩

theorem updateAt_approximates (place : Eval (Value × String))
    {reads reads' combines combines' writes writes' : Nat} (hr : reads ≤ reads')
    (hc : combines ≤ combines') (hw : writes ≤ writes') :
    (Runner.updateAt place (settings.runner reads) (settings.runner combines)
      (settings.runner writes) s op e).Approximates
    (Runner.updateAt place (settings.runner reads') (settings.runner combines')
      (settings.runner writes') s op e) := by
  apply Eval.Approximates.bind (.refl place)
  rintro ⟨object, key⟩
  apply Eval.Approximates.bind ((Operation.read object key).perform_approximates settings hr)
  intro current
  apply Eval.Approximates.bind ((Operation.eval e s).perform_approximates settings hc)
  intro right
  apply Eval.Approximates.bind (applyBinary_approximates settings hc op current right)
  intro value
  apply Eval.Approximates.bind
    ((Operation.write object key value).perform_approximates settings hw)
  intro _
  exact .refl _

end

/-- Between the two evaluations of its target the expansion does nothing, so it is one update of the
place, with a little more fuel for every further step. -/
theorem equivalent_property (op : CompoundOp) {object : Expr} (property e : Expr)
    (simple : object = .this ∨ ∃ x, object = .ident x) :
    Expr.Equivalent (.assign (.binary op) (.access object property false) e)
      (.assign .assign (.access object property false)
        (.binary op (.access object property false) e)) := by
  have expanded (settings : Settings) (s : ScopeId) : ∃ place, ∀ n,
      run settings (n + 2) (.eval (.assign (.binary op) (.access object property false) e) s) =
        Runner.updateAt place (settings.runner (n + 1)) (settings.runner (n + 1))
          (settings.runner (n + 1)) s op e ∧
      run settings (n + 4) (.eval (.assign .assign (.access object property false)
        (.binary op (.access object property false) e)) s) =
        Runner.updateAt place (settings.runner (n + 1)) (settings.runner (n + 2))
          (settings.runner (n + 3)) s op e := by
    obtain ⟨place, quiet, same⟩ := exists_quiet_place settings s property simple
    refine ⟨place, fun n => ⟨?_, ?_⟩⟩
    · rw [run_assign_property, same]
    · -- both evaluations of the target look at the same machine
      rw [run_assign_expanded, same (n + 2), same n, quiet.twice]
      rfl
  apply Expr.Equivalent.of_approximates (a := 2) (b := 4) (c := 4) (d := 4)
  · intro settings s n
    obtain ⟨place, same⟩ := expanded settings s
    rw [(same n).1, (same n).2]
    exact updateAt_approximates settings s op e place (by omega) (by omega) (by omega)
  · intro settings s n
    obtain ⟨place, same⟩ := expanded settings s
    rw [(same n).2, (same (n + 2)).1]
    exact updateAt_approximates settings s op e place (by omega) (by omega) (by omega)

/-- A compound assignment is its expansion: it ends in the same value or fault and leaves the same
machine, whatever the operand, getters, setters and conversions do to the target meanwhile.  For
logical assignments this includes the name that a function without one takes.

The operator of the expansion is the one that is written before the equals sign, and an assignment
is plain, applies an arithmetic or bitwise operator or a shift, or is logical. -/
theorem compound_assignment_expands (e : Expr) :
    (∀ (op : AssignOp) b x, op.binary? = some b → Expr.Equivalent (.assign op (.ident x) e)
      (.assign .assign (.ident x) (.binary b (.ident x) e))) ∧
    (∀ (op : AssignOp) b object property, op.binary? = some b →
      (object = .this ∨ ∃ x, object = .ident x) →
      Expr.Equivalent (.assign op (.access object property false) e)
        (.assign .assign (.access object property false)
          (.binary b (.access object property false) e))) ∧
    (∀ op x, Expr.Equivalent (.assign (.logical op) (.ident x) e)
      (.logical op (.ident x) (.assign .assign (.ident x) e))) ∧
    (∀ (op : AssignOp) b, op.binary? = some b → op.spelling = b.spelling ++ "=") ∧
    (∀ op, (AssignOp.logical op).spelling = op.spelling ++ "=") ∧
    (∀ b, (∃ op : AssignOp, op.binary? = some b) ↔ b ∈ BinaryOp.combining) ∧
    ∀ op : AssignOp, op = .assign ∨ (∃ b, op.binary? = some b) ∨ ∃ l, op = .logical l := by
  refine ⟨?_, ?_, ?_, fun _ _ => AssignOp.spelling_of_binary?, AssignOp.spelling_logical,
    AssignOp.exists_binary?_iff, ?_⟩
  · intro op b x applies
    obtain ⟨op, rfl, rfl⟩ := AssignOp.binary?_eq_some_iff.mp applies
    exact .of_eq fun settings s n => run_assign_binary settings s op x e n
  · intro op b object property applies simple
    obtain ⟨op, rfl, rfl⟩ := AssignOp.binary?_eq_some_iff.mp applies
    exact equivalent_property op property e simple
  · intro op x
    exact .of_eq fun settings s n => run_assign_logical settings s op x e n
  · intro op
    cases op with
    | assign => exact .inl rfl
    | binary op => exact .inr (.inl ⟨_, rfl⟩)
    | logical op => exact .inr (.inr ⟨op, rfl⟩)

/-- A variable `o` with an object that has a property `k`. -/
def aliasedMachine : Machine :=
  { Machine.empty with
    objects := #[⟨none, .ofList [("k", .writable (.string "a"))], .ordinary⟩]
    scopes := #[⟨none, .undefined, .ofList [("o", ⟨.object ⟨0⟩, true⟩)]⟩] }

/-- `(o = null, "b")` -/
def forgettingOperand : Expr :=
  .sequence [.assign .assign (.ident "o") (.literal ⟨.null, none, none⟩),
    .literal ⟨.string "b", none, none⟩]

/-- The operand of `o.k += (o = null, "b")` takes the object away from `o`.  The property is written
nevertheless, and so it is by the expansion. -/
theorem compound_assignment_expands_forgetting :
    ∃ m, Settings.standard.EndsIn ⟨0⟩
        (.assign (.binary .add) (.access (.ident "o") (.ident "k") false) forgettingOperand)
        aliasedMachine (.value (.string "ab") m) ∧
      Settings.standard.EndsIn ⟨0⟩
        (.assign .assign (.access (.ident "o") (.ident "k") false)
          (.binary .add (.access (.ident "o") (.ident "k") false) forgettingOperand))
        aliasedMachine (.value (.string "ab") m) ∧
      (m.object ⟨0⟩).properties.get? "k" = some (.writable (.string "ab")) ∧
      (m.scope ⟨0⟩).bindings.get? "o" = some ⟨.null, true⟩ := by
  obtain ⟨_, properties, _⟩ := compound_assignment_expands forgettingOperand
  have same := properties (.binary .add) .add (.ident "o") (.ident "k") rfl (.inr ⟨"o", rfl⟩)
  have ends : ∃ m, run .standard 4 (.eval (.assign (.binary .add)
      (.access (.ident "o") (.ident "k") false) forgettingOperand) ⟨0⟩) aliasedMachine =
        .value (.string "ab") m ∧
      (m.object ⟨0⟩).properties.get? "k" = some (.writable (.string "ab")) ∧
      (m.scope ⟨0⟩).bindings.get? "o" = some ⟨.null, true⟩ := ⟨_, rfl, rfl, rfl⟩
  obtain ⟨m, ends, written, forgotten⟩ := ends
  have compound := Settings.endsIn_of_run 4 ends (by simp)
  exact ⟨m, compound, (same .standard ⟨0⟩ aliasedMachine _).mp compound, written, forgotten⟩

end ScriptTree
