/-!
# Insertion-ordered tables

A table maps texts to values and remembers the order in which keys came.  Writing a key that is
there keeps its place, a new key goes last, and erasing one keeps the order of the others.

Two views say what an operation does.  `get?_insert` and `get?_erase` give the value under each key,
`keys_insert` and `keys_erase` the order of the keys.

These are the laws of every insertion-ordered map (`OrderedMap`), and a table is one
(`Table.orderedMap`).  The laws leave nothing open: after the same edits any two such maps show the
same keys, in the same order, and the same values (`OrderedMap.agree_run`).  So nothing that is said
of tables depends on how they are stored.
-/

namespace ScriptTree

/-- A map from texts that remembers the order of its keys. -/
structure Table (α : Type) where
  entries : List (String × α)

namespace Table

variable {α : Type}

/-- The table without keys. -/
def empty : Table α := ⟨[]⟩

instance : Inhabited (Table α) := ⟨empty⟩

/-- The keys, in order. -/
def keys (t : Table α) : List String := t.entries.map Prod.fst

/-- The value under a key. -/
def get? (t : Table α) (key : String) : Option α := t.entries.lookup key

/-- Whether the key is there. -/
def contains (t : Table α) (key : String) : Bool := (t.get? key).isSome

/-- Replaces the value under a key, or puts the pair last. -/
def insertEntry (key : String) (value : α) : List (String × α) → List (String × α)
  | [] => [(key, value)]
  | entry :: rest =>
      if entry.1 = key then (key, value) :: rest else entry :: insertEntry key value rest

/-- Writes a key, in its place when it is there and last when it is new. -/
def insert (t : Table α) (key : String) (value : α) : Table α := ⟨insertEntry key value t.entries⟩

/-- Takes a key away and keeps the order of the others. -/
def erase (t : Table α) (key : String) : Table α :=
  ⟨t.entries.filter fun entry => entry.1 ≠ key⟩

/-- The table of a list of pairs, where a later pair replaces an earlier one with its key. -/
def ofList (entries : List (String × α)) : Table α :=
  entries.foldl (fun t entry => t.insert entry.1 entry.2) empty

/-! ## Values -/

theorem lookup_entry_cons (key : String) (entry : String × α) (rest : List (String × α)) :
    (entry :: rest).lookup key = if key = entry.1 then some entry.2 else rest.lookup key := by
  rw [List.lookup_cons]
  by_cases h : key = entry.1
  · simp [h]
  · have hb : (key == entry.1) = false := beq_eq_false_iff_ne.mpr h
    simp [h, hb]

theorem lookup_insertEntry (key other : String) (value : α) (entries : List (String × α)) :
    (insertEntry key value entries).lookup other =
      if other = key then some value else entries.lookup other := by
  induction entries with
  | nil => simp [insertEntry, lookup_entry_cons]
  | cons entry rest ih =>
      by_cases hn : entry.1 = key
      · subst hn
        by_cases ho : other = entry.1 <;> simp [insertEntry, lookup_entry_cons, ho]
      · by_cases ho : other = entry.1
        · subst ho
          simp [insertEntry, lookup_entry_cons, hn]
        · simp [insertEntry, lookup_entry_cons, hn, ho, ih]

theorem lookup_filter_ne (key other : String) (entries : List (String × α)) :
    (entries.filter fun entry => entry.1 ≠ key).lookup other =
      if other = key then none else entries.lookup other := by
  induction entries with
  | nil => simp
  | cons entry rest ih =>
      by_cases hn : entry.1 = key
      · rw [List.filter_cons_of_neg (by simp [hn]), ih, lookup_entry_cons, hn]
        by_cases ho : other = key <;> simp [ho]
      · rw [List.filter_cons_of_pos (by simp [hn]), lookup_entry_cons, ih, lookup_entry_cons]
        by_cases ho : other = entry.1
        · subst ho
          simp [hn]
        · simp [ho]

@[simp] theorem get?_empty (key : String) : (empty : Table α).get? key = none := rfl

/-- A written key has its new value and every other key its old one. -/
@[simp] theorem get?_insert (t : Table α) (key other : String) (value : α) :
    (t.insert key value).get? other = if other = key then some value else t.get? other :=
  lookup_insertEntry key other value t.entries

/-- An erased key has no value and every other key its old one. -/
@[simp] theorem get?_erase (t : Table α) (key other : String) :
    (t.erase key).get? other = if other = key then none else t.get? other :=
  lookup_filter_ne key other t.entries

/-! ## Order -/

theorem map_fst_insertEntry (key : String) (value : α) (entries : List (String × α)) :
    (insertEntry key value entries).map Prod.fst =
      if key ∈ entries.map Prod.fst then entries.map Prod.fst
      else entries.map Prod.fst ++ [key] := by
  induction entries with
  | nil => simp [insertEntry]
  | cons entry rest ih =>
      by_cases h : entry.1 = key
      · simp [insertEntry, h]
      · have h' : key ≠ entry.1 := fun e => h e.symm
        simp only [insertEntry, h, if_false, List.map_cons, ih, List.mem_cons, h', false_or]
        split <;> rfl

/-- A key that is there keeps its place and a new one goes last. -/
theorem keys_insert (t : Table α) (key : String) (value : α) :
    (t.insert key value).keys = if key ∈ t.keys then t.keys else t.keys ++ [key] :=
  map_fst_insertEntry key value t.entries

/-- Erasing a key keeps the order of the others. -/
theorem keys_erase (t : Table α) (key : String) :
    (t.erase key).keys = t.keys.filter (· ≠ key) := by
  simp [keys, erase, List.filter_map, Function.comp_def]

end Table

/-! ## Insertion-ordered maps -/

/-- A map from texts that remembers the order in which its keys came.  The value under each key and
the order of the keys are all that is seen of it, and the laws say what they are after each
operation. -/
structure OrderedMap (α : Type) where
  Carrier : Type
  empty : Carrier
  get? : Carrier → String → Option α
  keys : Carrier → List String
  insert : Carrier → String → α → Carrier
  erase : Carrier → String → Carrier
  get?_empty : ∀ key, get? empty key = none
  keys_empty : keys empty = []
  get?_insert : ∀ t key other value,
    get? (insert t key value) other = if other = key then some value else get? t other
  keys_insert : ∀ t key value,
    keys (insert t key value) = if key ∈ keys t then keys t else keys t ++ [key]
  get?_erase : ∀ t key other, get? (erase t key) other = if other = key then none else get? t other
  keys_erase : ∀ t key, keys (erase t key) = (keys t).filter (· ≠ key)

/-- A table is an insertion-ordered map. -/
def Table.orderedMap (α : Type) : OrderedMap α where
  Carrier := Table α
  empty := .empty
  get? := get?
  keys := keys
  insert := insert
  erase := erase
  get?_empty := get?_empty
  keys_empty := rfl
  get?_insert := get?_insert
  keys_insert := keys_insert
  get?_erase := get?_erase
  keys_erase := keys_erase

namespace OrderedMap

variable {α : Type} {A B : OrderedMap α}

/-- Two maps show the same. -/
structure Agree (A B : OrderedMap α) (a : A.Carrier) (b : B.Carrier) : Prop where
  get? : ∀ key, A.get? a key = B.get? b key
  keys : A.keys a = B.keys b

/-- A change of one key: a value that is written, or none where the key is erased. -/
abbrev Change (α : Type) := String × Option α

def change (A : OrderedMap α) (a : A.Carrier) : Change α → A.Carrier
  | (key, some value) => A.insert a key value
  | (key, none) => A.erase a key

/-- The map after some changes, from the empty one. -/
def run (A : OrderedMap α) (changes : List (Change α)) : A.Carrier := changes.foldl A.change A.empty

theorem Agree.change {a : A.Carrier} {b : B.Carrier} (h : Agree A B a b) :
    ∀ c : Change α, Agree A B (A.change a c) (B.change b c)
  | (key, some value) =>
      { get? := fun other => by
          show A.get? (A.insert a key value) other = B.get? (B.insert b key value) other
          rw [A.get?_insert, B.get?_insert, h.get?]
        keys := by
          show A.keys (A.insert a key value) = B.keys (B.insert b key value)
          rw [A.keys_insert, B.keys_insert, h.keys] }
  | (key, none) =>
      { get? := fun other => by
          show A.get? (A.erase a key) other = B.get? (B.erase b key) other
          rw [A.get?_erase, B.get?_erase, h.get?]
        keys := by
          show A.keys (A.erase a key) = B.keys (B.erase b key)
          rw [A.keys_erase, B.keys_erase, h.keys] }

/-- The laws determine what is seen of a map: after the same changes any two show the same. -/
theorem agree_run (A B : OrderedMap α) (changes : List (Change α)) :
    Agree A B (A.run changes) (B.run changes) := by
  have start : Agree A B A.empty B.empty :=
    ⟨fun key => by rw [A.get?_empty, B.get?_empty], by rw [A.keys_empty, B.keys_empty]⟩
  rw [run, run]
  generalize A.empty = a, B.empty = b at start
  induction changes generalizing a b with
  | nil => exact start
  | cons c rest ih => exact ih (a := A.change a c) (b := B.change b c) (start.change c)

end OrderedMap

end ScriptTree
