import ScriptTree.Proofs.SimulatedStatements

/-!
# Hidden expressions

An expression that the evaluator does not know is inert: as long as it is not evaluated, it does not
matter what stands there.  So a program with hidden expressions that does not end with an internal
fault ends as the program ends of which they are hidden.  The two machines they leave differ in the
code of functions only.

Finalizers are left out.  One that jumps ends the evaluation in another way than the fault of a
hidden expression did, so that nobody learns of it.
-/

namespace ScriptTree

/-- Any expressions may be hidden. -/
def Veil.hiding (finalizers : Prop) : Veil := ⟨True, finalizers⟩

/-- Nothing is said after an internal fault. -/
def Slack.hiding (tires lags : Prop) : Slack where
  toVeil := .hiding False
  escapes f := ∃ message trace, f = .internal message trace
  tires := tires
  lags := lags
  uncaught := by
    rintro _ ⟨message, trace, rfl⟩
    rfl
  hidden _ message trace := ⟨message, trace, rfl⟩

namespace Outcome

variable {α : Type}

/-- The same end, on machines that are alike. -/
inductive Alike (V : Veil) : Outcome α → Outcome α → Prop
  | value (a : α) {m m' : Machine} (h : m.Alike V m') : Alike V (.value a m) (.value a m')
  | fault (f : Fault) {m m' : Machine} (h : m.Alike V m') : Alike V (.fault f m) (.fault f m')
  | exhausted {m m' : Machine} (h : m.Alike V m') : Alike V (.exhausted m) (.exhausted m')

/-- The value an action ended with. -/
def value? : Outcome α → Option α
  | .value a _ => some a
  | _ => none

/-- Whether an action ended with an internal fault. -/
def isInternal : Outcome α → Bool
  | .fault (.internal ..) _ => true
  | _ => false

/-- Whether the fuel of an action was used up. -/
def isExhausted : Outcome α → Bool
  | .exhausted _ => true
  | _ => false

theorem Alike.value? {V : Veil} {o o' : Outcome α} (h : o.Alike V o') : o.value? = o'.value? := by
  cases h with
  | value | fault | exhausted => rfl

end Outcome

/-- An end without an internal fault is an end of the other evaluation too. -/
theorem Slack.Ends.alike {tires : Prop} {α : Type} {o o' : Outcome α}
    (h : (Slack.hiding tires False).Ends Eq o o') (internal : o.isInternal = false)
    (exhausted : o.isExhausted = false) : o.Alike (.hiding False) o' := by
  cases h with
  | value h alike =>
      cases h
      exact .value _ alike
  | fault alike => exact .fault _ alike
  | exhausted | tired => cases exhausted
  | escaped h =>
      obtain ⟨_, _, rfl⟩ := h
      cases internal
  | lagging h => cases h

/-- An evaluation that goes on for longer than another one can. -/
theorem Slack.Ends.isExhausted {lags : Prop} {α : Type} {o o' : Outcome α}
    (h : (Slack.hiding False lags).Ends Eq o o') (exhausted : o.isExhausted = true) :
    o'.isExhausted = true := by
  cases h with
  | exhausted | lagging => rfl
  | tired h => cases h
  | value | fault | escaped => cases exhausted

/-- Statements with any expressions hidden, also in functions, defaults and keys, end as the
statements do of which these are hidden, unless they end with an internal fault: with the same
completion or fault, the same console, and the same heap and scopes but for the code of functions.
When they have not ended with some fuel, the others have not ended with less. -/
theorem hidden_expressions_inert (settings : Settings) (s : ScopeId) {m : Machine}
    {hidden body : List Stmt} (hides : likeStmts (.hiding True) hidden body)
    (free : allStmts .finalizerFree body = true)
    (closures : ∀ o c, (m.object o).kind = .function (.closure c) →
      c.code.all .finalizerFree = true) (fuel : Nat) :
    (((settings.runner fuel).statements s .undefined hidden m).isInternal = false →
      ((settings.runner fuel).statements s .undefined hidden m).isExhausted = false →
      ((settings.runner fuel).statements s .undefined hidden m).Alike (.hiding False)
        ((settings.runner fuel).statements s .undefined body m)) ∧
    (((settings.runner (fuel + 1)).statements s .undefined hidden m).isExhausted = true →
      ((settings.runner fuel).statements s .undefined body m).isExhausted = true) := by
  have alike : m.Alike (.hiding False) m := .of_finalizerFree closures
  have like : likeStmts (.hiding False) hidden body := likeStmts_strict hides free
  constructor
  -- With the same fuel a hidden expression may lack the fuel to be evaluated, where what it hides
  -- would not be evaluated; with one more it does not.
  · have pair := Slack.pair_of_tires (L := .hiding True False) id trivial settings fuel
    exact (pair.statements s .undefined like m m alike).alike
  · have pair := Slack.pair_of_lags (L := .hiding False True) id trivial settings fuel
    exact (pair.statements s .undefined like m m alike).isExhausted

/-- A scope that binds `same` to the function `x => x`. -/
def identityMachine : Machine :=
  { Machine.empty with
    objects := #[⟨some .functionPrototype, .empty, .function (.closure
      ⟨none, ⟨none, [.ident "x"], .expression (.ident "x"), false, false, none⟩, ⟨0⟩, true⟩)⟩]
    scopes := #[⟨none, .undefined, .ofList [("same", ⟨.object ⟨0⟩, true⟩)]⟩] }

/-- `function f(a = default) { return same(a); }  this && operand;  f("kept");` -/
def unevaluatedParts (default operand : Expr) : List Stmt :=
  [.function ⟨some "f", [.default (.ident "a") default],
      .block [.ret (some (.call (.ident "same") [.ident "a"]))], false, false, none⟩,
    .expression (.logical .and .this operand),
    .expression (.call (.ident "f") [.literal ⟨.string "kept", none, none⟩])]

/-- The text that statements ended with. -/
def Completion.text? : Completion → Option String
  | .normal (.string s) => some s
  | _ => none

theorem unevaluatedParts_like (default operand : Expr) :
    likeStmts (.hiding True) (unevaluatedParts .unsupported .unsupported)
      (unevaluatedParts default operand) := by
  have parameter : Pattern.Like (.hiding True) (.default (.ident "a") .unsupported)
      (.default (.ident "a") default) := ⟨_, _, rfl, rfl, .inl trivial⟩
  have conjunction : Expr.Like (.hiding True) (.logical .and .this .unsupported)
      (.logical .and .this operand) := ⟨_, _, rfl, rfl, .inl trivial⟩
  exact ⟨_, _, rfl, ⟨_, rfl, _, _, rfl, ⟨_, _, rfl, parameter, rfl⟩, .refl trivial _⟩,
    _, _, rfl, ⟨_, rfl, conjunction⟩, likeStmts_refl trivial _⟩

theorem hidden_expressions_inert_unevaluated :
    likeStmts (.hiding True) (unevaluatedParts .unsupported .unsupported)
        (unevaluatedParts (.object []) (.call .this [])) ∧
      ((Settings.standard.runner 9).statements ⟨0⟩ .undefined
        (unevaluatedParts (.object []) (.call .this [])) identityMachine).value?.bind
          Completion.text? = some "kept" := by
  have hides := unevaluatedParts_like (.object []) (.call .this [])
  have closures : ∀ o c, (identityMachine.object o).kind = .function (.closure c) →
      c.code.all .finalizerFree = true := by
    rintro ⟨_ | o⟩ c h
    · cases h
      rfl
    · cases h
  have inert := hidden_expressions_inert .standard ⟨0⟩ hides rfl closures 9
  have ends := inert.1 (by decide +kernel) (by decide +kernel)
  refine ⟨hides, ?_⟩
  rw [← ends.value?]
  decide +kernel

end ScriptTree
