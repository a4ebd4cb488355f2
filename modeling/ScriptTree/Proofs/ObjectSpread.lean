import ScriptTree.Expression.ObjectLiteral
import ScriptTree.Proofs.TableEdits

/-!
# Spreads in object literals

A spread `...source` copies the entries of a table, one after the other, into the table of the
object that the literal makes.  As long as the source has values only, nothing runs and the copy is
an ordered merge in which the source wins (`Runner.copyEntries_eq`).  Its keys and values are those
that `keys_insertAll` and `get?_insertAll` give.
-/

namespace ScriptTree

/-! ## Ordered merges -/

namespace Table

variable {α : Type} {t : Table α} {entries : List (String × α)}

/-- Writes pairs one after the other. -/
def insertAll (t : Table α) : List (String × α) → Table α
  | [] => t
  | entry :: rest => (t.insert entry.1 entry.2).insertAll rest

theorem lookup_eq_none_of_notMem {key : String} (absent : key ∉ entries.map Prod.fst) :
    entries.lookup key = none :=
  (get?_eq_none_iff (t := ⟨entries⟩)).mpr absent

/-- New keys come last, in the order of the pairs. -/
theorem keys_insertAll (distinct : (entries.map Prod.fst).Nodup) :
    (t.insertAll entries).keys = t.keys ++ (entries.map Prod.fst).filter (· ∉ t.keys) := by
  induction entries generalizing t with
  | nil => simp [insertAll]
  | cons entry rest ih =>
      obtain ⟨once, distinct⟩ := List.nodup_cons.mp distinct
      rw [insertAll, ih distinct, keys_insert]
      split
      next there => simp [there]
      next new =>
        -- the key of the first pair is in no other, so it is no reason to leave one out
        have others : (rest.map Prod.fst).filter (· ∉ t.keys ++ [entry.1]) =
            (rest.map Prod.fst).filter (· ∉ t.keys) := by
          refine List.filter_congr fun key mem => ?_
          have other : key ≠ entry.1 := fun same => once (same ▸ mem)
          simp [other]
        rw [others, List.map_cons, List.filter_cons_of_pos (by simpa using new), List.append_assoc,
          List.singleton_append]

/-- A key has the value that it is paired with, and its old one if it is in no pair. -/
theorem get?_insertAll (distinct : (entries.map Prod.fst).Nodup) (key : String) :
    (t.insertAll entries).get? key = (entries.lookup key).or (t.get? key) := by
  induction entries generalizing t with
  | nil => rfl
  | cons entry rest ih =>
      obtain ⟨once, distinct⟩ := List.nodup_cons.mp distinct
      rw [insertAll, ih distinct, get?_insert, lookup_entry_cons]
      by_cases same : key = entry.1
      · subst same
        simp [lookup_eq_none_of_notMem once]
      · simp [same]

/-- Pairs whose keys are all new are put at the end. -/
theorem insertAll_of_new (distinct : (t.keys ++ entries.map Prod.fst).Nodup) :
    t.insertAll entries = ⟨t.entries ++ entries⟩ := by
  induction entries generalizing t with
  | nil => simp [insertAll]
  | cons entry rest ih =>
      have new : entry.1 ∉ t.keys := by
        intro mem
        exact (List.nodup_append.mp distinct).2.2 _ mem _ (by simp) rfl
      have last : t.insert entry.1 entry.2 = ⟨t.entries ++ [entry]⟩ :=
        congrArg Table.mk (insertEntry_of_notMem entry.2 new)
      rw [insertAll, last, ih (by simpa [keys] using distinct)]
      simp

end Table

/-! ## Copies -/

/-- The property with its value made writable.  Accessors stay. -/
def Property.thawed : Property → Property
  | .data v _ => .writable v
  | .accessor getter setter => .accessor getter setter

namespace Table

variable {t : Table Property}

/-- All entries are values. -/
def HoldsValues (t : Table Property) : Prop := ∀ entry ∈ t.entries, ∃ v w, entry.2 = .data v w

/-- The entries, with their values made writable. -/
def thawed (t : Table Property) : List (String × Property) :=
  t.entries.map fun entry => (entry.1, entry.2.thawed)

theorem keys_thawed (t : Table Property) : t.thawed.map Prod.fst = t.keys := by
  simp [thawed, keys]

theorem lookup_thawed (t : Table Property) (key : String) :
    t.thawed.lookup key = (t.get? key).map Property.thawed := by
  obtain ⟨entries⟩ := t
  rw [thawed, get?]
  induction entries with
  | nil => rfl
  | cons entry rest ih =>
      rw [List.map_cons, lookup_entry_cons, lookup_entry_cons, ih]
      split <;> rfl

/-- The copy of a copy is the same. -/
theorem thawed_thawed (t : Table Property) : thawed ⟨t.thawed⟩ = t.thawed := by
  have twice (p : Property) : p.thawed.thawed = p.thawed := by cases p <;> rfl
  simp [thawed, twice]

theorem HoldsValues.copy (values : t.HoldsValues) : HoldsValues ⟨t.thawed⟩ := by
  intro entry mem
  obtain ⟨old, there, rfl⟩ := List.mem_map.mp mem
  obtain ⟨v, w, same⟩ := values old there
  exact ⟨v, true, by rw [same]; rfl⟩

/-- The copy of a table in an empty one. -/
theorem insertAll_empty (distinct : t.Distinct) : (empty).insertAll t.thawed = ⟨t.thawed⟩ :=
  insertAll_of_new (by rw [keys_thawed]; exact distinct)

end Table

namespace Runner

variable {m : Machine} {source target : ObjectId}

/-- Values are copied into the table of the target and nothing else happens. -/
theorem copyEntries_eq (r : Runner) {t : Table Property} (values : t.HoldsValues)
    (inside : target.index < m.objects.size) :
    r.copyEntries source target t.entries m =
      .value () (m.withTable target ((m.object target).properties.insertAll t.thawed)) := by
  obtain ⟨entries⟩ := t
  induction entries generalizing m with
  | nil => exact congrArg (Outcome.value ()) (m.withTable_self target).symm
  | cons entry rest ih =>
      obtain ⟨key, p⟩ := entry
      obtain ⟨v, w, rfl⟩ := values (key, p) List.mem_cons_self
      have defined := Eval.define_eq target key (.writable v) m
      have unfolded : r.copyEntries source target ((key, .data v w) :: rest) m =
          (do Eval.define target key (.writable v); r.copyEntries source target rest) m := rfl
      rw [unfolded, Eval.bind_of_value defined, ih]
      · rw [Machine.object_withTable inside, Machine.withTable_withTable]
        rfl
      · rw [Machine.size_withTable]
        exact inside
      · exact fun entry mem => values entry (List.mem_cons_of_mem _ mem)

theorem copyProperties_eq (r : Runner) (values : (m.object source).properties.HoldsValues)
    (inside : target.index < m.objects.size) :
    r.copyProperties (.object source) target m =
      .value () (m.withTable target
        ((m.object target).properties.insertAll (m.object source).properties.thawed)) :=
  r.copyEntries_eq values inside

end Runner

/-- A spread of an object that has values only is an ordered merge in which the source wins.  No
script runs, since the interpreter does not count, and no other object changes.  The target keeps
its keys in their order and gets the new ones of the source behind them, in the order of the
source.  A key of the source has its value there, writable, whatever it was before and on the
target, and every other key is as it was.  So a spread into an empty literal copies keys, order and
values, and a copy of the copy has the same table. -/
theorem spread_merges {m : Machine} {source target : ObjectId}
    (inside : target.index < m.objects.size)
    (distinct : (m.object source).properties.Distinct)
    (values : (m.object source).properties.HoldsValues) :
    ∃ t : Table Property,
      (∀ r : Runner, r.copyProperties (.object source) target m =
        .value () (m.withTable target t)) ∧
      (∀ (r : Runner) s e m₀, r.eval s e m₀ = .value (.object source) m →
        r.defineMember s target (.spread e) m₀ = .value () (m.withTable target t)) ∧
      (m.withTable target t).object target = { m.object target with properties := t } ∧
      (∀ o, o ≠ target → (m.withTable target t).object o = m.object o) ∧
      t.keys = (m.object target).properties.keys ++
        (m.object source).properties.keys.filter (· ∉ (m.object target).properties.keys) ∧
      (∀ key v w, (m.object source).properties.get? key = some (.data v w) →
        t.get? key = some (.writable v)) ∧
      (∀ key, key ∉ (m.object source).properties.keys →
        t.get? key = (m.object target).properties.get? key) ∧
      ((m.object target).properties = .empty →
        t.keys = (m.object source).properties.keys ∧
        ∀ (m₂ : Machine) (again : ObjectId), again.index < m₂.objects.size →
          (m₂.object target).properties = t → (m₂.object again).properties = .empty →
          ∀ r : Runner, r.copyProperties (.object target) again m₂ =
            .value () (m₂.withTable again t)) := by
  have copied (r : Runner) := r.copyProperties_eq values inside
  have once : ((m.object source).properties.thawed.map Prod.fst).Nodup := by
    rw [Table.keys_thawed]
    exact distinct
  refine ⟨_, copied, ?_, Machine.object_withTable inside _,
    fun o other => Machine.object_withTable_of_ne other _, ?_, ?_, ?_, ?_⟩
  · intro r s e m₀ evaluated
    exact (Eval.bind_of_value evaluated).trans (copied r)
  · rw [Table.keys_insertAll once, Table.keys_thawed]
  · intro key v w found
    rw [Table.get?_insertAll once, Table.lookup_thawed, found]
    rfl
  · intro key absent
    rw [Table.get?_insertAll once, Table.lookup_thawed, Table.get?_eq_none_iff.mpr absent]
    rfl
  · intro blank
    rw [blank, Table.insertAll_empty distinct]
    refine ⟨Table.keys_thawed _, ?_⟩
    intro m₂ again inside₂ copy blank₂ r
    have values₂ : (m₂.object target).properties.HoldsValues := by
      rw [copy]
      exact values.copy
    have distinct₂ : Table.Distinct ⟨(m.object source).properties.thawed⟩ := once
    rw [r.copyProperties_eq values₂ inside₂, copy, blank₂, Table.insertAll_empty distinct₂,
      Table.thawed_thawed]

/-- A machine with `{get a() {…}, b: true}`, with a source of a constant `c` and a value `a`, and
with two empty objects. -/
def overlapping : Machine :=
  { Machine.empty with
    objects := #[
      ⟨none, ⟨[("a", .accessor .null .undefined), ("b", .writable (.bool true))]⟩, .ordinary⟩,
      ⟨none, ⟨[("c", .readOnly .null), ("a", .writable (.bool false))]⟩, .ordinary⟩,
      ⟨none, .empty, .ordinary⟩, ⟨none, .empty, .ordinary⟩] }

/-- The accessor gives way and the constant becomes writable.  The copy of the copy is the copy. -/
theorem spread_merges_overlapping :
    (overlapping.object ⟨1⟩).properties.Distinct ∧ (overlapping.object ⟨1⟩).properties.HoldsValues ∧
    (∃ t, (∀ r : Runner, r.copyProperties (.object ⟨1⟩) ⟨0⟩ overlapping =
        .value () (overlapping.withTable ⟨0⟩ t)) ∧
      (overlapping.withTable ⟨0⟩ t).object ⟨1⟩ = overlapping.object ⟨1⟩ ∧
      t.keys = ["a", "b", "c"] ∧ t.get? "a" = some (.writable (.bool false)) ∧
      t.get? "b" = some (.writable (.bool true)) ∧ t.get? "c" = some (.writable .null)) ∧
    ∃ t, t.keys = ["c", "a"] ∧
      ∀ r : Runner, r.copyProperties (.object ⟨2⟩) ⟨3⟩ (overlapping.withTable ⟨2⟩ t) =
        .value () ((overlapping.withTable ⟨2⟩ t).withTable ⟨3⟩ t) := by
  have distinct : (overlapping.object ⟨1⟩).properties.Distinct := by
    have keys : ["c", "a"].Nodup := by decide
    exact keys
  have values : (overlapping.object ⟨1⟩).properties.HoldsValues := by
    intro entry mem
    rcases List.mem_pair.mp mem with rfl | rfl
    · exact ⟨.null, false, rfl⟩
    · exact ⟨.bool false, true, rfl⟩
  refine ⟨distinct, values, ?_, ?_⟩
  · obtain ⟨t, copied, _, _, others, keys, won, kept, _⟩ :=
      @spread_merges overlapping ⟨1⟩ ⟨0⟩ (by decide) distinct values
    have absent : "b" ∉ (overlapping.object ⟨1⟩).properties.keys := by
      have keys : "b" ∉ ["c", "a"] := by decide
      exact keys
    exact ⟨t, copied, others ⟨1⟩ (by decide), keys, won "a" (.bool false) true rfl, kept "b" absent,
      won "c" .null false rfl⟩
  · obtain ⟨t, _, _, changed, _, _, _, _, empty⟩ :=
      @spread_merges overlapping ⟨1⟩ ⟨2⟩ (by decide) distinct values
    obtain ⟨keys, again⟩ := empty rfl
    refine ⟨t, keys, again _ ⟨3⟩ ?_ ?_ ?_⟩
    · rw [Machine.size_withTable]
      decide
    · rw [changed]
    · rw [Machine.object_withTable_of_ne (by decide)]
      rfl

end ScriptTree
