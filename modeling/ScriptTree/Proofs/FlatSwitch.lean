import ScriptTree.Proofs.Discipline
import ScriptTree.Statement

/-!
# A switch is its flattened form

A `switch` looks for the case to start at and then runs bodies case by case.  The flattened form
says the same with lists: the start is an index, found by the tests in order or else by the first
case without a test, and what runs is one list of statements, the bodies of all cases from there on
(`execute_switch_eq`).

Two facts are behind it.  Statements in a row are one list of statements
(`Runner.statements_append`).  And a switch forgets the value of a body that ends normally, so it
does not matter that every case starts without a value (`Runner.runCases_eq`).
-/

namespace ScriptTree

/-- How a switch ends when its statements ended so.  It takes a `break` and forgets values. -/
def Completion.leaveSwitch : Completion → Completion
  | .normal _ | .brk => .normal .undefined
  | completion => completion

namespace Runner

variable (r : Runner) (s : ScopeId)

/-! ## The flattened form -/

/-- Whether a case is chosen by its test. -/
def testMatches (value : Value) (clause : SwitchCase) : Eval Bool := do
  match clause.test with
  | none => return false
  | some test => return (← r.eval s test).strictEquals value

/-- The index of the case to start at: the first one whose test equals the value, or else the first
one without a test.  The search ends with the test that is equal. -/
def startIndex? (value : Value) (cases : List SwitchCase) : Eval (Option Nat) := do
  let chosen ← cases.zipIdx.findM? fun clause => r.testMatches s value clause.1
  return (chosen.map Prod.snd).or (cases.findIdx? fun clause => clause.test.isNone)

/-- A switch in its flattened form. -/
def flatSwitch (discriminant : Expr) (cases : List SwitchCase) : Eval Completion := do
  let value ← r.eval s discriminant
  let inner ← Eval.childScope s
  match ← r.startIndex? inner value cases with
  | none => return .normal .undefined
  | some start =>
      let body := (cases.drop start).flatMap fun clause => clause.body
      return (← r.statements inner .undefined body).leaveSwitch

/-! ## The start -/

/-- After the cases that were passed over, the rest is found by its index. -/
theorem matchingCases_eq (value : Value) (passed cases : List SwitchCase) :
    r.matchingCases s value cases = (do
      let chosen ← (cases.zipIdx passed.length).findM? fun clause =>
        r.testMatches s value clause.1
      return chosen.map fun clause => (passed ++ cases).drop clause.2) := by
  induction cases generalizing passed with
  | nil => rfl
  | cons clause rest ih =>
      have later := ih (passed ++ [clause])
      rw [List.length_append, List.append_assoc] at later
      have here : (passed ++ clause :: rest).drop passed.length = clause :: rest :=
        List.drop_left
      rw [matchingCases, List.zipIdx_cons, List.findM?, testMatches]
      cases clause.test with
      | none =>
          rw [pure_bind]
          exact later
      | some test =>
          simp only [bind_assoc, pure_bind]
          apply bind_congr
          intro tested
          cases tested.strictEquals value with
          | true =>
              simp only [if_true, pure_bind, Option.map_some, here]
          | false => exact later

/-- The default is the first case without a test. -/
theorem defaultCases_eq (cases : List SwitchCase) :
    defaultCases cases =
      ((cases.findIdx? fun clause => clause.test.isNone).map cases.drop).getD [] := by
  have untested : (fun clause : SwitchCase => !clause.test.isSome) =
      fun clause => clause.test.isNone := by
    funext clause
    simp
  rw [defaultCases, List.dropWhile_eq_drop_findIdx_not, untested]
  cases found : cases.findIdx? fun clause => clause.test.isNone with
  | none =>
      rw [List.findIdx?_eq_none_iff_findIdx_eq.mp found]
      simp
  | some i =>
      rw [(List.findIdx?_eq_some_iff_findIdx_eq.mp found).2]
      rfl

/-! ## The bodies -/

/-- Statements in a row: the second list runs if the first one ends normally, with its value. -/
theorem statements_append (last : Value) (first second : List Stmt) :
    r.statements s last (first ++ second) = (do
      match ← r.statements s last first with
      | .normal value => r.statements s value second
      | completion => return completion) := by
  induction first generalizing last with
  | nil => rfl
  | cons stmt rest ih =>
      simp only [List.cons_append, statements, bind_assoc]
      apply bind_congr
      intro completion
      cases completion with
      | normal value => exact ih value
      | ret value => rfl
      | brk => rfl
      | cont => rfl

/-- Statements with a value before them that the switch forgets. -/
theorem leaveSwitch_statements (last last' : Value) (body : List Stmt) :
    (do return (← r.statements s last body).leaveSwitch) =
      (do return (← r.statements s last' body).leaveSwitch : Eval Completion) := by
  cases body with
  | nil => rfl
  | cons stmt rest => rfl

/-- Running bodies case by case is running them as one list. -/
theorem runCases_eq (last : Value) (cases : List SwitchCase) :
    r.runCases s cases = (do
      return (← r.statements s last (cases.flatMap fun clause => clause.body)).leaveSwitch) := by
  induction cases generalizing last with
  | nil => rfl
  | cons clause rest ih =>
      -- every case starts without a value, the list with the one that was left before it
      rw [r.leaveSwitch_statements s last .undefined, List.flatMap_cons, statements_append,
        runCases, bind_assoc]
      apply bind_congr
      intro completion
      cases completion with
      | normal value => exact ih value
      | ret value => rfl
      | brk => rfl
      | cont => rfl

end Runner

/-- A switch is its flattened form, for every runner.  After the discriminant, the tests run in
order in a fresh scope inside, until one is strictly equal to it.  The statements of all cases from
the start on run as one list in that scope, a `break` ends the switch normally, and whatever else
ends them ends the switch. -/
theorem execute_switch_eq (r : Runner) (s : ScopeId) (discriminant : Expr)
    (cases : List SwitchCase) :
    r.execute s (.switch discriminant cases) = r.flatSwitch s discriminant cases := by
  show r.switch s discriminant cases = r.flatSwitch s discriminant cases
  rw [Runner.switch, Runner.flatSwitch]
  apply bind_congr
  intro value
  apply bind_congr
  intro inner
  rw [r.matchingCases_eq inner value [] cases, Runner.startIndex?]
  simp only [bind_assoc, pure_bind]
  apply bind_congr
  intro chosen
  cases chosen with
  | some clause => exact r.runCases_eq inner .undefined (cases.drop clause.2)
  | none =>
      simp only [Option.map_none, Option.none_or, Runner.defaultCases_eq]
      cases cases.findIdx? fun clause => clause.test.isNone with
      | none => rfl
      | some start => exact r.runCases_eq inner .undefined (cases.drop start)

end ScriptTree
