import ScriptTree.Proofs.Links

/-!
# Tables without double keys

A table is a list of entries, and nothing in its type keeps a key from having two.  Objects are made
with a table in which no key does, and writing and taking away an entry keeps it so.  So no table of
a machine has a key twice, if none had before an operation (`Operation.perform_distinctKeys`), and
none has on the machine that sessions start from.
-/

namespace ScriptTree

namespace Machine

/-- No table of the machine has a key twice. -/
def DistinctKeys (m : Machine) : Prop := ∀ o, (m.object o).properties.Distinct

namespace DistinctKeys

variable {m m' : Machine}

/-- Only objects count. -/
theorem of_objects (h : m.DistinctKeys) (same : m'.objects = m.objects) : m'.DistinctKeys := by
  intro o
  rw [object, same]
  exact h o

theorem push (h : m.DistinctKeys) {o : Object} (distinct : o.properties.Distinct) :
    DistinctKeys { m with objects := m.objects.push o } := by
  intro i
  rw [object_push]
  split
  · exact distinct
  · exact h i

theorem modify (h : m.DistinctKeys) (o : ObjectId) {f : Object → Object}
    (distinct : ∀ x : Object, x.properties.Distinct → (f x).properties.Distinct) :
    (m.modifyObject o f).DistinctKeys := by
  intro i
  rw [object_modify]
  split
  · exact distinct _ (h o)
  · exact h i

end DistinctKeys

end Machine

/-! ## The discipline -/

namespace Discipline

/-- No table has a key twice. -/
def distinct : Discipline where
  World := { m : Machine // m.DistinctKeys }
  machine := Subtype.val
  console w := w.val.console
  reaches _ _ _ := True
  value _ _ := True
  slot _ _ := True
  scope _ _ := True
  target _ _ := True
  builtin _ := True
  fault _ _ := True
  checks := .anything
  fits _ := True
  room _ _ _ := True
  mayEnter _ := True
  mayExhaust := True
  inStep _ := True

theorem distinct_carefree : distinct.Carefree where
  value _ _ := trivial
  scope _ _ := trivial
  builtin _ := trivial
  fault _ _ := trivial
  fits _ := trivial
  room _ _ _ := trivial
  sees _ _ _ := trivial
  mayExhaust := trivial
  slot _ _ := trivial
  checks := rfl

theorem distinct_follows {fp : Footprint} {w : distinct.World} (change : Machine → Machine)
    (kept : (change w.val).DistinctKeys) (console : (change w.val).console = w.val.console) :
    ∃ w', distinct.Follows fp w w' change :=
  ⟨⟨change w.val, kept⟩, trivial, rfl, console⟩

theorem distinct_changes : distinct.Changes where
  refl _ _ := trivial
  trans _ _ := trivial
  widenScope _ := trivial
  widenTarget _ := trivial
  dropScope _ _ := trivial
  dropTarget _ _ := trivial
  target_mono _ _ := trivial
  allocates {w o} ho := by
    obtain ⟨w', follows⟩ := distinct_follows (fun m => { m with objects := m.objects.push o })
      (w.property.push ho.keys) rfl
    exact ⟨w', follows, fun _ _ => trivial, fun _ => trivial⟩
  defines {w o p} key _ := distinct_follows (·.modifyObject o fun object => object.define key p)
    (w.property.modify o fun _ h => h.insert key p) rfl
  erases {w o} key := distinct_follows (·.modifyObject o fun object => object.erase key)
    (w.property.modify o fun _ h => h.erase key) rfl
  boxes {w o p} _ _ :=
    distinct_follows (·.modifyObject o fun object => { object with kind := .boxed p })
      (w.property.modify o fun _ h => h) rfl
  opensScope {w _ _} := distinct_follows _ (w.property.of_objects rfl) rfl
  declares {w _ _} _ _ := distinct_follows _ (w.property.of_objects rfl) rfl
  assigns {w _ _ _ _} _ _ := distinct_follows _ (w.property.of_objects rfl) rfl
  setsClock w _ := distinct_follows _ (w.property.of_objects rfl) rfl
  enters {w} frame _ := by
    refine ⟨⟨{ w.val with stack := frame :: w.val.stack }, w.property.of_objects rfl⟩, rfl, rfl,
      fun _ h => h, ?_⟩
    intro fp w₂ _
    exact ⟨⟨{ w₂.val with stack := w₂.val.stack.tail }, w₂.property.of_objects rfl⟩, trivial, rfl,
      rfl, fun _ => trivial⟩

theorem distinct_lawful : distinct.Lawful := distinct_carefree.lawful distinct_changes

theorem distinct_agree (settings : Settings) : distinct.Agree settings settings :=
  distinct_lawful.agree settings (fun _ _ _ => trivial) (fun _ _ => trivial) fun w line =>
    ⟨⟨{ w.val with console := w.val.console.push line }, w.property.of_objects rfl⟩, trivial, rfl,
      rfl⟩

end Discipline

/-! ## Operations -/

namespace Operation

variable {α : Type} (op : Operation α) {m : Machine} (h : m.DistinctKeys) (settings : Settings)
  (fuel : Nat)
include h

/-- No operation gives a table a key twice. -/
theorem perform_distinctKeys : (op.perform (settings.runner fuel) m).machine.DistinctKeys := by
  obtain ⟨w', _, ends⟩ := Discipline.distinct_lawful.perform (Discipline.distinct_agree settings)
    fuel op (w := ⟨m, h⟩) (Discipline.distinct_carefree.requests fun _ _ => trivial)
  have left : (op.perform (settings.runner fuel) m).machine = w'.val := ends
  rw [left]
  exact w'.property

end Operation

theorem Realm.machine_distinctKeys : machine.DistinctKeys := by
  have start : Machine.DistinctKeys { Machine.empty with objects := prototypes } := by
    intro o
    obtain ⟨p, he, _⟩ := object_prototypes o.index
    rw [Machine.object, he]
    exact .empty
  obtain ⟨w, hw, _⟩ := Discipline.distinct_lawful.realm (fun _ => trivial) (w := ⟨_, start⟩) rfl
  have left : machine = w.val := hw.symm
  rw [left]
  exact w.property

end ScriptTree
