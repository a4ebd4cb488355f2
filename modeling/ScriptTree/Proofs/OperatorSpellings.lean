import ScriptTree.Tree.Names

/-!
# How operators and kinds are written

Every operator and every kind has one spelling.  A table of names reads a text as an operator exactly
when the text is the spelling of that operator (`IsTableOf`), which holds of the tables that trees are
read with.

The assignment that applies an operator is spelled as the operator with an equals sign behind it, and
it is the arithmetic and bitwise operators and the shifts that an assignment can apply
(`AssignOp.spelling_of_binary?`, `AssignOp.exists_binary?_iff`).
-/

namespace ScriptTree

/-! ## Spellings -/

def DeclarationKind.spelling : DeclarationKind → String
  | .var => "var"
  | .lexical => "let"
  | .constant => "const"

def MemberKind.spelling : MemberKind → String
  | .init => "init"
  | .getter => "get"
  | .setter => "set"

def UnaryOp.spelling : UnaryOp → String
  | .minus => "-"
  | .plus => "+"
  | .not => "!"
  | .bitNot => "~"
  | .typeof => "typeof"
  | .void => "void"
  | .delete => "delete"

def UpdateOp.spelling : UpdateOp → String
  | .increment => "++"
  | .decrement => "--"

def BinaryOp.spelling : BinaryOp → String
  | .add => "+"
  | .sub => "-"
  | .mul => "*"
  | .div => "/"
  | .mod => "%"
  | .exp => "**"
  | .eq => "=="
  | .notEq => "!="
  | .strictEq => "==="
  | .strictNotEq => "!=="
  | .lt => "<"
  | .ltEq => "<="
  | .gt => ">"
  | .gtEq => ">="
  | .bitAnd => "&"
  | .bitOr => "|"
  | .bitXor => "^"
  | .shiftLeft => "<<"
  | .shiftRight => ">>"
  | .shiftRightUnsigned => ">>>"
  | .isIn => "in"
  | .instanceOf => "instanceof"

def LogicalOp.spelling : LogicalOp → String
  | .and => "&&"
  | .or => "||"
  | .nullish => "??"

def AssignOp.spelling : AssignOp → String
  | .assign => "="
  | .binary .add => "+="
  | .binary .sub => "-="
  | .binary .mul => "*="
  | .binary .div => "/="
  | .binary .mod => "%="
  | .binary .exp => "**="
  | .binary .bitAnd => "&="
  | .binary .bitOr => "|="
  | .binary .bitXor => "^="
  | .binary .shiftLeft => "<<="
  | .binary .shiftRight => ">>="
  | .binary .shiftRightUnsigned => ">>>="
  | .logical .and => "&&="
  | .logical .or => "||="
  | .logical .nullish => "??="

/-! ## Tables -/

/-- A text is read as what it is the spelling of. -/
def IsTableOf {α : Type} (spelling : α → String) (names : List (String × α)) : Prop :=
  ∀ s a, names.lookup s = some a ↔ spelling a = s

theorem mem_of_lookup {α : Type} {names : List (String × α)} {s : String} {a : α}
    (found : names.lookup s = some a) : (s, a) ∈ names := by
  obtain ⟨before, after, rfl, -⟩ := List.lookup_eq_some_iff.mp found
  simp

/-- A table in which everything stands behind its spelling, and nothing else stands. -/
theorem isTableOf {α : Type} {spelling : α → String} {names : List (String × α)}
    (sound : ∀ name ∈ names, spelling name.2 = name.1)
    (complete : ∀ a, names.lookup (spelling a) = some a) : IsTableOf spelling names := by
  intro s a
  constructor
  · intro found
    exact sound _ (mem_of_lookup found)
  · rintro rfl
    exact complete a

theorem DeclarationKind.names_isTable : IsTableOf spelling names :=
  isTableOf (by decide) fun kind => by cases kind <;> rfl

theorem MemberKind.names_isTable : IsTableOf spelling names :=
  isTableOf (by decide) fun kind => by cases kind <;> rfl

theorem UnaryOp.names_isTable : IsTableOf spelling names :=
  isTableOf (by decide) fun op => by cases op <;> rfl

theorem UpdateOp.names_isTable : IsTableOf spelling names :=
  isTableOf (by decide) fun op => by cases op <;> rfl

theorem BinaryOp.names_isTable : IsTableOf spelling names :=
  isTableOf (by decide) fun op => by cases op <;> rfl

theorem LogicalOp.names_isTable : IsTableOf spelling names :=
  isTableOf (by decide) fun op => by cases op <;> rfl

theorem AssignOp.names_isTable : IsTableOf spelling names :=
  isTableOf (by decide) fun op => by
    cases op with
    | assign => rfl
    | binary op | logical op => cases op <;> rfl

/-! ## Assignments -/

/-- The arithmetic operators, the bitwise ones and the shifts. -/
def BinaryOp.combining : List BinaryOp :=
  [.add, .sub, .mul, .div, .mod, .exp, .bitAnd, .bitOr, .bitXor, .shiftLeft, .shiftRight,
   .shiftRightUnsigned]

namespace AssignOp

variable {op : AssignOp} {b : BinaryOp}

theorem binary?_eq_some_iff : op.binary? = some b ↔ ∃ c : CompoundOp, op = .binary c ∧ ↑c = b := by
  cases op <;> simp [binary?]

theorem spelling_of_binary? (h : op.binary? = some b) : op.spelling = b.spelling ++ "=" := by
  obtain ⟨c, rfl, rfl⟩ := binary?_eq_some_iff.mp h
  cases c <;> rfl

theorem spelling_logical (op : LogicalOp) : (logical op).spelling = op.spelling ++ "=" := by
  cases op <;> rfl

/-- An assignment can apply the operators that give a number or join texts. -/
theorem exists_binary?_iff (b : BinaryOp) :
    (∃ op : AssignOp, op.binary? = some b) ↔ b ∈ BinaryOp.combining := by
  constructor
  · rintro ⟨op, h⟩
    obtain ⟨c, rfl, rfl⟩ := binary?_eq_some_iff.mp h
    cases c <;> decide
  · intro mem
    have listed : ∀ b ∈ BinaryOp.combining, ∃ name ∈ names, name.2.binary? = some b := by decide
    obtain ⟨name, -, h⟩ := listed b mem
    exact ⟨name.2, h⟩

end AssignOp

end ScriptTree
