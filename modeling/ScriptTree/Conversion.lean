import ScriptTree.Property

/-!
# Conversions

Converting an object runs its `valueOf` and `toString`; primitives convert by themselves.
-/

namespace ScriptTree

/-- Which conversion a place prefers. -/
inductive Hint where
  | number
  | string
deriving DecidableEq, Repr

/-- The methods to try, the preferred one first. -/
def Hint.methods : Hint → List String
  | .number => ["valueOf", "toString"]
  | .string => ["toString", "valueOf"]

namespace Runner

/-- Calls the methods of an object in turn until one gives a primitive.  What cannot be called is
passed over. -/
def primitiveFrom (r : Runner) (o : ObjectId) : List String → Eval Primitive
  | [] => Eval.fail .noPrimitive
  | name :: rest => do
      let method ← r.readProperty o name (.object o)
      if ← Eval.isCallable method then
        match ← r.call method (.object o) [] with
        | .primitive p => pure p
        | .object _ => r.primitiveFrom o rest
      else r.primitiveFrom o rest

/-- The primitive of a value.  Only an object runs script for it. -/
def toPrimitive (r : Runner) (hint : Hint) : Value → Eval Primitive
  | .primitive p => pure p
  | .object o => r.primitiveFrom o hint.methods

/-- The number of a value. -/
def toNumber (r : Runner) (v : Value) : Eval Float := do
  return (← r.toPrimitive .number v).toNumber

/-- The text of a value. -/
def toText (r : Runner) (v : Value) : Eval String := do
  return (← r.toPrimitive .string v).toText

/-- Property keys are texts. -/
def toKey (r : Runner) (v : Value) : Eval String := r.toText v

/-- The number of a value reduced to 32 bits. -/
def toWord (r : Runner) (v : Value) : Eval UInt32 := do
  return ScriptTree.toWord (← r.toNumber v)

/-! ## Array-likes -/

/-- The elements from `index` on, `count` of them, put behind those already read. -/
def elementsFrom (r : Runner) (v : Value) : Nat → Nat → List Value → Eval (List Value)
  | _, 0, done => pure done.reverse
  | index, count + 1, done => do
      let element ← r.getProperty v (indexText index)
      r.elementsFrom v (index + 1) count (element :: done)

/-- The elements a value has by its `length` and its indices. -/
def arrayLike (r : Runner) (v : Value) : Eval (List Value) := do
  let length ← r.toNumber (← r.getProperty v "length")
  r.elementsFrom v 0 (elementCount length) []
where
  /-- How many elements a length asks for: none unless it is finite and positive. -/
  elementCount (length : Float) : Nat :=
    match Binary.ofFloat? length with
    | some b => if b.negative then 0 else b.truncatedSize
    | none => 0

end Runner

end ScriptTree
