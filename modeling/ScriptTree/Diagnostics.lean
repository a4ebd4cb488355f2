import ScriptTree.Realm

/-!
# Diagnostic texts

What an embedder sees of values, scopes and settings.  No script runs for them.
-/

namespace ScriptTree

/-- A text between braces. -/
def braced (s : String) : String := "\x7b" ++ s ++ "\x7d"

/-- A text between quotes, without escapes. -/
def quoted (s : String) : String := "\"" ++ s ++ "\""

/-- The text for a primitive. -/
def Primitive.debugText : Primitive → String
  | .number x => Layout.plain.text x
  | .string s => quoted s
  | p => p.toText

/-- The text for a value. -/
def Machine.debugText (m : Machine) : Value → String
  | .primitive p => p.debugText
  | .object o =>
      match (m.object o).kind with
      | .ordinary => braced "..."
      | .function callable => "[Function: " ++ callable.name?.getD "anonymous" ++ "]"
      | .boxed p => "[" ++ p.debugText ++ "]"
      | .host table => table.label

/-- A record with some of its fields. -/
def recordText (name : String) (fields : List (String × String)) : String :=
  let shown := fields.map fun field => field.1 ++ ": " ++ field.2
  name ++ " " ++ braced (" " ++ ", ".intercalate (shown ++ [".."]) ++ " ")

/-- The text for a scope: the names it binds, sorted, and how many scopes are around it. -/
def Machine.scopeText (m : Machine) (s : ScopeId) : String :=
  let names := (m.scope s).bindings.keys.mergeSort fun a b => a ≤ b
  recordText "Scope"
    [("bindings", "[" ++ ", ".intercalate (names.map quoted) ++ "]"),
     ("depth", indexText (m.ancestorsWithin m.scopes.size s))]

/-- The text for settings. -/
def Settings.debugText (settings : Settings) : String :=
  recordText "EngineOptions"
    [("max_call_depth", indexText settings.maxCallDepth),
     ("timeout_ms", indexText settings.timeoutMs)]

/-- The text for a machine with its settings. -/
def Machine.engineText (m : Machine) (settings : Settings) : String :=
  recordText "Engine"
    [("globals", indexText Realm.globals.length),
     ("options", settings.debugText),
     ("call_depth", indexText m.stack.length)]

end ScriptTree
