import ScriptTree.Machine

/-!
# Tables, stores and walks

*Tables.*  What a table holds was put there.  A key that has an entry keeps its place when it is
written again, and a new key comes last.  So a table in which no key has two entries stays one
(`Table.Distinct`).

*Walks.*  A walk looks at one store only.  What it finds is where it says it is: the binding of a
name is one of the scope that comes with it, and an inherited property is an own property of some
object of the chain.
-/

namespace ScriptTree

/-! ## Tables -/

namespace Table

variable {α : Type}

theorem mem_insertEntry {key : String} {value : α} {entry : String × α}
    {entries : List (String × α)} (h : entry ∈ insertEntry key value entries) :
    entry = (key, value) ∨ entry ∈ entries := by
  induction entries with
  | nil => exact .inl (List.mem_singleton.mp h)
  | cons first rest ih =>
      rw [insertEntry] at h
      split at h
      · rcases List.mem_cons.mp h with h | h
        · exact .inl h
        · exact .inr (List.mem_cons_of_mem _ h)
      · rcases List.mem_cons.mp h with h | h
        · exact .inr (List.mem_cons.mpr (.inl h))
        · exact (ih h).imp_right (List.mem_cons_of_mem _)

/-- An entry of a table after a write is the written one or an old one. -/
theorem mem_insert {t : Table α} {key : String} {value : α} {entry : String × α}
    (h : entry ∈ (t.insert key value).entries) : entry = (key, value) ∨ entry ∈ t.entries :=
  mem_insertEntry h

/-- A key that is there keeps its place. -/
theorem insertEntry_append_cons {before after : List (String × α)} {key : String} (old value : α)
    (first : key ∉ before.map Prod.fst) :
    insertEntry key value (before ++ (key, old) :: after) = before ++ (key, value) :: after := by
  induction before with
  | nil => rw [List.nil_append, insertEntry, if_pos rfl, List.nil_append]
  | cons entry before ih =>
      rw [List.map_cons, List.mem_cons, not_or] at first
      rw [List.cons_append, insertEntry, if_neg (Ne.symm first.1), ih first.2, List.cons_append]

/-- A new key goes last. -/
theorem insertEntry_of_notMem {entries : List (String × α)} {key : String} (value : α)
    (new : key ∉ entries.map Prod.fst) :
    insertEntry key value entries = entries ++ [(key, value)] := by
  induction entries with
  | nil => rfl
  | cons entry rest ih =>
      rw [List.map_cons, List.mem_cons, not_or] at new
      rw [insertEntry, if_neg (Ne.symm new.1), ih new.2, List.cons_append]

/-- The value under a key is that of its first entry. -/
theorem get?_eq_some_iff {t : Table α} {key : String} {value : α} :
    t.get? key = some value ↔ ∃ before after,
      t.entries = before ++ (key, value) :: after ∧ key ∉ before.map Prod.fst := by
  simp only [get?, List.lookup_eq_some_iff, bne_iff_ne, List.mem_map, not_exists, not_and]
  constructor
  · rintro ⟨before, after, entries, first⟩
    exact ⟨before, after, entries, fun entry he same => first entry he same.symm⟩
  · rintro ⟨before, after, entries, first⟩
    exact ⟨before, after, entries, fun entry he same => first entry he same.symm⟩

theorem get?_eq_none_iff {t : Table α} {key : String} : t.get? key = none ↔ key ∉ t.keys := by
  simp only [get?, List.lookup_eq_none_iff, keys, List.mem_map, not_exists, not_and]
  constructor
  · intro none entry mem same
    simpa [same] using none entry mem
  · intro none entry mem
    simpa using Ne.symm (none entry mem)

theorem mem_foldl_insert {entry : String × α} {entries : List (String × α)} {t : Table α}
    (h : entry ∈ (entries.foldl (fun t entry => t.insert entry.1 entry.2) t).entries) :
    entry ∈ entries ∨ entry ∈ t.entries := by
  induction entries generalizing t with
  | nil => exact .inr h
  | cons first rest ih =>
      rcases ih h with h | h
      · exact .inl (List.mem_cons_of_mem _ h)
      · rcases mem_insert h with h | h
        · exact .inl (List.mem_cons.mpr (.inl h))
        · exact .inr h

/-- A table made of a list of pairs holds only these. -/
theorem mem_ofList {entries : List (String × α)} {entry : String × α}
    (h : entry ∈ (ofList entries).entries) : entry ∈ entries := by
  rcases mem_foldl_insert h with h | h
  · exact h
  · cases h

theorem mem_of_get? {t : Table α} {key : String} {a : α} (h : t.get? key = some a) :
    (key, a) ∈ t.entries := by
  obtain ⟨before, after, he, _⟩ := get?_eq_some_iff.mp h
  rw [he]
  exact List.mem_append_right before List.mem_cons_self

/-- A table after an erasure holds no new entries. -/
theorem mem_erase {t : Table α} {key : String} {entry : String × α}
    (h : entry ∈ (t.erase key).entries) : entry ∈ t.entries :=
  (List.mem_filter.mp h).1

/-- No key has two entries. -/
def Distinct (t : Table α) : Prop := t.keys.Nodup

namespace Distinct

variable {t : Table α}

theorem empty : (empty : Table α).Distinct := List.Pairwise.nil

theorem insert (h : t.Distinct) (key : String) (value : α) : (t.insert key value).Distinct := by
  rw [Distinct, keys_insert]
  split
  next => exact h
  next new =>
    refine List.nodup_append.mpr ⟨h, by simp, fun other mem last hlast => ?_⟩
    rw [List.mem_singleton.mp hlast]
    rintro rfl
    exact new mem

theorem erase (h : t.Distinct) (key : String) : (t.erase key).Distinct := by
  rw [Distinct, keys_erase]
  exact List.Pairwise.filter _ h

theorem foldl_insert (h : t.Distinct) (entries : List (String × α)) :
    (entries.foldl (fun t entry => t.insert entry.1 entry.2) t).Distinct := by
  induction entries generalizing t with
  | nil => exact h
  | cons entry rest ih => exact ih (h.insert entry.1 entry.2)

theorem ofList (entries : List (String × α)) : (ofList entries).Distinct :=
  empty.foldl_insert entries

end Distinct

end Table

/-- The properties of a text are primitives. -/
theorem textProperty?_eq_some {s key : String} {p : Property} (h : textProperty? s key = some p) :
    ∃ value : Primitive, p = .readOnly (.primitive value) := by
  rw [textProperty?] at h
  split at h
  · exact ⟨_, (Option.some.inj h).symm⟩
  · obtain ⟨index, _, h⟩ := Option.bind_eq_some_iff.mp h
    obtain ⟨unit, _, h⟩ := Option.bind_eq_some_iff.mp h
    exact ⟨_, (Option.some.inj h).symm⟩

/-! ## Objects and scopes after a change -/

namespace Machine

variable (m : Machine)

/-- An object past the end is not there. -/
theorem object_default {o : ObjectId} (h : m.objects.size ≤ o.index) : m.object o = default := by
  rw [object, Array.getElem?_eq_none h]
  rfl

/-- A scope past the end has neither names nor a parent. -/
theorem scope_default {s : ScopeId} (h : m.scopes.size ≤ s.index) : m.scope s = default := by
  rw [scope, Array.getElem?_eq_none h]
  rfl

theorem object_push (o : Object) (i : ObjectId) :
    Machine.object { m with objects := m.objects.push o } i =
      if i.index = m.objects.size then o else m.object i := by
  simp only [object, Array.getElem?_push]
  split <;> rfl

theorem object_modify (o : ObjectId) (f : Object → Object) (i : ObjectId) :
    (m.modifyObject o f).object i =
      if i = o ∧ o.index < m.objects.size then f (m.object o) else m.object i := by
  obtain ⟨o⟩ := o
  obtain ⟨i⟩ := i
  simp only [object, modifyObject, Array.getElem?_modify, ObjectId.mk.injEq]
  by_cases hi : o = i
  · subst hi
    by_cases ho : o < m.objects.size
    · simp [ho]
    · simp [ho]
  · simp [hi, Ne.symm hi]

theorem scope_push (scope : Scope) (i : ScopeId) :
    Machine.scope { m with scopes := m.scopes.push scope } i =
      if i.index = m.scopes.size then scope else m.scope i := by
  simp only [Machine.scope, Array.getElem?_push]
  split <;> rfl

theorem scope_modify (s : ScopeId) (f : Scope → Scope) (i : ScopeId) :
    (m.modifyScope s f).scope i =
      if i = s ∧ s.index < m.scopes.size then f (m.scope s) else m.scope i := by
  obtain ⟨s⟩ := s
  obtain ⟨i⟩ := i
  simp only [scope, modifyScope, Array.getElem?_modify, ScopeId.mk.injEq]
  by_cases hi : s = i
  · subst hi
    by_cases hs : s < m.scopes.size
    · simp [hs]
    · simp [hs]
  · simp [hi, Ne.symm hi]

end Machine

/-! ## Functions of the heap -/

/-- Every function of the heap is as `P` says. -/
def Machine.Functions (m : Machine) (P : Callable → Prop) : Prop :=
  ∀ o c, (m.object o).kind = .function c → P c

/-- What can be called has the shape of a function and is one. -/
theorem Machine.callable?_object {m : Machine} {o : ObjectId} {c : Callable} :
    m.callable? (.object o) = some c ↔
      (m.object o).prototype = some .functionPrototype ∧ (m.object o).kind = .function c := by
  simp only [callable?, isFunction, Object.callable?, decide_eq_true_eq]
  constructor
  · intro h
    split at h
    next shape =>
      split at h
      next c' kind =>
        cases h
        exact ⟨shape, kind⟩
      next => cases h
    next => cases h
  · rintro ⟨shape, kind⟩
    rw [if_pos shape, kind]

/-- What can be called is a function of the heap. -/
theorem Machine.kind_of_callable? {m : Machine} {v : Value} {c : Callable}
    (h : m.callable? v = some c) : ∃ o, (m.object o).kind = .function c := by
  cases v with
  | primitive p => cases h
  | object o => exact ⟨o, (callable?_object.mp h).2⟩

namespace Machine.Functions

variable {m : Machine} {P : Callable → Prop}

theorem push (h : m.Functions P) {o : Object} (ho : ∀ c, o.kind = .function c → P c) :
    Machine.Functions { m with objects := m.objects.push o } P := by
  intro i c hc
  rw [object_push] at hc
  split at hc
  · exact ho c hc
  · exact h i c hc

/-- A change that makes no object a function. -/
theorem modify (h : m.Functions P) (o : ObjectId) (f : Object → Object)
    (hf : ∀ x c, (f x).kind = .function c → x.kind = .function c) :
    (m.modifyObject o f).Functions P := by
  intro i c hc
  rw [object_modify] at hc
  split at hc
  · exact h o c (hf _ c hc)
  · exact h i c hc

theorem of_callable? (h : m.Functions P) {v : Value} {c : Callable}
    (hc : m.callable? v = some c) : P c := by
  obtain ⟨o, kind⟩ := kind_of_callable? hc
  exact h o c kind

end Machine.Functions

/-! ## Walks -/

namespace Machine

theorem nearestWithin_congr {m m' : Machine} (h : m.scopes = m'.scopes) (name : String) :
    ∀ (bound : Nat) (s : ScopeId), m.nearestWithin name bound s = m'.nearestWithin name bound s
  | 0, _ => rfl
  | bound + 1, s => by
      have hs : m.scope s = m'.scope s := by rw [scope, scope, h]
      rw [nearestWithin, nearestWithin, hs]
      cases (m'.scope s).bindings.get? name with
      | some _ => rfl
      | none =>
          cases (m'.scope s).parent with
          | some parent => exact nearestWithin_congr h name bound parent
          | none => rfl

theorem nearest_congr {m m' : Machine} (h : m.scopes = m'.scopes) (s : ScopeId) (name : String) :
    m.nearest s name = m'.nearest s name := by
  rw [nearest, nearest, h]
  exact nearestWithin_congr h name _ s

theorem propertyWithin_congr {m m' : Machine} (h : m.objects = m'.objects) (key : String) :
    ∀ (bound : Nat) (o : ObjectId), m.propertyWithin key bound o = m'.propertyWithin key bound o
  | 0, _ => rfl
  | bound + 1, o => by
      have ho : m.object o = m'.object o := by rw [object, object, h]
      rw [propertyWithin, propertyWithin, ho]
      cases (m'.object o).own? key with
      | some _ => rfl
      | none =>
          cases (m'.object o).prototype with
          | some parent => exact propertyWithin_congr h key bound parent
          | none => rfl

theorem property_congr {m m' : Machine} (h : m.objects = m'.objects) (o : ObjectId)
    (key : String) : m.property o key = m'.property o key := by
  rw [property, property, h]
  exact propertyWithin_congr h key _ o

theorem nearestWithin_found {m : Machine} {name : String} {owner : ScopeId} {b : Binding} :
    ∀ {bound : Nat} {s : ScopeId}, m.nearestWithin name bound s = .found (owner, b) →
      (m.scope owner).bindings.get? name = some b
  | 0, _, h => by cases h
  | bound + 1, s, h => by
      rw [nearestWithin] at h
      cases hb : (m.scope s).bindings.get? name with
      | some binding =>
          rw [hb] at h
          cases h
          exact hb
      | none =>
          rw [hb] at h
          cases hp : (m.scope s).parent with
          | some parent =>
              rw [hp] at h
              exact nearestWithin_found h
          | none =>
              rw [hp] at h
              cases h

/-- The nearest binding of a name is a binding of the scope it is found in. -/
theorem nearest_found {m : Machine} {s owner : ScopeId} {name : String} {b : Binding}
    (h : m.nearest s name = .found (owner, b)) : (m.scope owner).bindings.get? name = some b :=
  nearestWithin_found h

theorem propertyWithin_found {m : Machine} {key : String} {p : Property} :
    ∀ {bound : Nat} {o : ObjectId}, m.propertyWithin key bound o = .found p →
      ∃ holder, (m.object holder).own? key = some p
  | 0, _, h => by cases h
  | bound + 1, o, h => by
      rw [propertyWithin] at h
      cases hb : (m.object o).own? key with
      | some property =>
          rw [hb] at h
          cases h
          exact ⟨o, hb⟩
      | none =>
          rw [hb] at h
          cases hp : (m.object o).prototype with
          | some parent =>
              rw [hp] at h
              exact propertyWithin_found h
          | none =>
              rw [hp] at h
              cases h

/-- An inherited property is an own property of some object. -/
theorem property_found {m : Machine} {o : ObjectId} {key : String} {p : Property}
    (h : m.property o key = .found p) : ∃ holder, (m.object holder).own? key = some p :=
  propertyWithin_found h

end Machine

end ScriptTree
