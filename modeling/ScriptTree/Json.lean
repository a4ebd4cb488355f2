/-!
# JSON values

A number remembers whether it was written as an integer of at most 64 bits, because some fields of
a tree accept integers only.  An object keeps its fields in order and may name one twice.
-/

namespace ScriptTree

/-- A number of a JSON text. -/
inductive JsonNumber where
  /-- An integer from `-2 ^ 63` to `2 ^ 64 - 1`. -/
  | integer (n : Int)
  /-- Any other number, negative zero among them. -/
  | real (x : Float)

/-- The double nearest to the number. -/
def JsonNumber.toFloat : JsonNumber → Float
  | .integer n => Float.ofInt n
  | .real x => x

/-- A JSON value. -/
inductive Json where
  | null
  | bool (b : Bool)
  | number (n : JsonNumber)
  | string (s : String)
  | array (items : List Json)
  | object (fields : List (String × Json))

namespace Json

instance : Inhabited Json := ⟨null⟩

/-- The values under a key of an object, in order. -/
def valuesOf (key : String) (fields : List (String × Json)) : List Json :=
  (fields.filter fun field => field.1 = key).map Prod.snd

/-! ## Nesting -/

mutual

/-- How deeply arrays and objects are nested in the value. -/
def depth : Json → Nat
  | .array items => itemsDepth items + 1
  | .object fields => fieldsDepth fields + 1
  | _ => 0

/-- The greatest depth among the items of an array. -/
def itemsDepth : List Json → Nat
  | [] => 0
  | item :: rest => max (depth item) (itemsDepth rest)

/-- The greatest depth among the fields of an object. -/
def fieldsDepth : List (String × Json) → Nat
  | [] => 0
  | (_, value) :: rest => max (depth value) (fieldsDepth rest)

end

end Json

end ScriptTree
