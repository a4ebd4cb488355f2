import ScriptTree.Diagnostics
import ScriptTree.Interpreter

/-!
# Sessions

A session is a machine with its settings and its global scope.  What one program declares stays
visible to the next.
-/

namespace ScriptTree

/-- Fuel that no evaluation uses up in practice. -/
def ampleFuel : Nat := Nat.pow 2 60

/-- A machine that has its global scope, and the settings it runs with. -/
structure Session where
  settings : Settings
  machine : Machine

/-- The global scope, which is the first one opened. -/
def ScopeId.global : ScopeId := ⟨0⟩

namespace Session

/-- A session on a fresh machine.  `prepare` makes the values an embedder adds. -/
def start (settings : Settings) (prepare : Eval GlobalSetup) : Session :=
  ⟨settings, (prepare >>= Eval.openGlobal) Realm.machine |>.machine⟩

/-- The runner of the session. -/
def runner (session : Session) : Runner := session.settings.runner ampleFuel

/-- Runs an action on the machine of the session and keeps the machine it leaves. -/
def perform {α : Type} (session : Session) (action : Eval α) : Outcome α × Session :=
  let outcome := action session.machine
  (outcome, { session with machine := outcome.machine })

/-- Runs a program in the global scope. -/
def evalProgram (session : Session) (program : Program) : Outcome Value × Session :=
  session.perform (session.runner.evalProgram .global program)

/-- Reads a program from JSON text and runs it in the global scope. -/
def evalText (session : Session) (text : String) : Outcome Value × Session :=
  session.perform (session.runner.evalText .global text)

/-- The value of a global name. -/
def getGlobal (session : Session) (name : String) : Outcome Value × Session :=
  session.perform (Eval.lookup .global name)

end Session

end ScriptTree
