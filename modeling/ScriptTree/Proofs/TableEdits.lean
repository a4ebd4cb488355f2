import ScriptTree.Proofs.DistinctKeys

/-!
# Property tables over time

An object is edited by defining a property, by assigning to one, and by deleting one.  An assignment
counts here when it writes an own value, so no setter and no read-only value is in its way.  Each
edit changes the table of the object and nothing else (`Edit.perform_eq`).

What a table is after any number of edits is said without tables.  For each key we keep the *moment*
at which it came in and what was last written under it (`Held`).  A key that is written again keeps
its moment, one that was deleted and comes back gets a new one.  The table has the keys that are
held, with what is held under them, in the order of their moments (`Table.DatedBy`).
-/

namespace ScriptTree

/-! ## Another table for an object -/

namespace Machine

variable {m : Machine} {o : ObjectId}

/-- Only what a change makes of the object counts. -/
theorem modifyObject_congr {f g : Object → Object} (same : f (m.object o) = g (m.object o)) :
    m.modifyObject o f = m.modifyObject o g := by
  have objects : m.objects.modify o.index f = m.objects.modify o.index g := by
    apply Array.ext_getElem?
    intro i
    rw [Array.getElem?_modify, Array.getElem?_modify]
    by_cases here : o.index = i
    · subst here
      cases found : m.objects[o.index]? with
      | none => simp
      | some object =>
          have whole : m.object o = object := by rw [Machine.object, found, Option.getD_some]
          rw [whole] at same
          simp [same]
    · simp [here]
  rw [modifyObject, modifyObject, objects]

/-- The machine with another table for one object. -/
def withTable (m : Machine) (o : ObjectId) (t : Table Property) : Machine :=
  m.modifyObject o fun object => { object with properties := t }

theorem object_withTable (inside : o.index < m.objects.size) (t : Table Property) :
    (m.withTable o t).object o = { m.object o with properties := t } := by
  rw [withTable, object_modify, if_pos ⟨rfl, inside⟩]

theorem object_withTable_of_ne {q : ObjectId} (other : q ≠ o) (t : Table Property) :
    (m.withTable o t).object q = m.object q := by
  rw [withTable, object_modify, if_neg fun same => other same.1]

theorem size_withTable (m : Machine) (o : ObjectId) (t : Table Property) :
    (m.withTable o t).objects.size = m.objects.size :=
  Array.size_modify ..

theorem withTable_self (m : Machine) (o : ObjectId) :
    m.withTable o (m.object o).properties = m := by
  have same : m.withTable o (m.object o).properties = m.modifyObject o id := modifyObject_congr rfl
  have nothing : m.objects.modify o.index id = m.objects := by
    apply Array.ext_getElem?
    intro i
    simp [Array.getElem?_modify]
  rw [same, modifyObject, nothing]

/-- The last table counts. -/
theorem withTable_withTable (m : Machine) (o : ObjectId) (t t' : Table Property) :
    (m.withTable o t).withTable o t' = m.withTable o t' := by
  have twice : ((m.objects.modify o.index ({ · with properties := t })).modify o.index
      ({ · with properties := t' })) = m.objects.modify o.index ({ · with properties := t' }) := by
    apply Array.ext_getElem?
    intro i
    by_cases here : o.index = i
    · simp [Array.getElem?_modify, here, Function.comp_def]
    · simp [Array.getElem?_modify, here]
  rw [withTable, withTable, withTable, modifyObject, modifyObject, modifyObject, twice]

end Machine

theorem Eval.define_eq (o : ObjectId) (key : String) (p : Property) (m : Machine) :
    define o key p m = .value () (m.withTable o ((m.object o).properties.insert key p)) :=
  congrArg (Outcome.value ()) (Machine.modifyObject_congr rfl)

theorem Eval.erase_eq (o : ObjectId) (key : String) (m : Machine) :
    erase o key m = .value () (m.withTable o ((m.object o).properties.erase key)) :=
  congrArg (Outcome.value ()) (Machine.modifyObject_congr rfl)

/-- An assignment that finds no setter and no read-only value defines an own value. -/
theorem Runner.assignProperty_of_writable (r : Runner) {m : Machine} {o : ObjectId} {key : String}
    (writable : m.property o key = .absent ∨ ∃ old, m.property o key = .found (.writable old))
    (v receiver : Value) :
    r.assignProperty o key v receiver m =
      .value () (m.withTable o ((m.object o).properties.insert key (.writable v))) := by
  rw [← Eval.define_eq, assignProperty]
  rcases writable with absent | ⟨old, found⟩
  · have looked : Eval.property? o key m = .value none m := by
      rw [Eval.property?, Eval.search, absent]
    exact Eval.bind_of_value looked
  · have looked : Eval.property? o key m = .value (some (.writable old)) m := by
      rw [Eval.property?, Eval.search, found]
    exact Eval.bind_of_value looked

/-! ## Edits -/

def Property.isReadOnly : Property → Bool
  | .data _ writable => !writable
  | .accessor .. => false

theorem Property.isReadOnly_iff {p : Property} : p.isReadOnly = true ↔ ∃ v, p = .readOnly v := by
  cases p with
  | data v writable => simp [isReadOnly]
  | accessor getter setter => simp [isReadOnly]

/-- A change that is asked of one object. -/
inductive Edit where
  | define (key : String) (property : Property)
  | assign (key : String) (value receiver : Value)
  | delete (key : String)

namespace Edit

/-- The key that is edited. -/
def key : Edit → String
  | .define key _ | .assign key _ _ | .delete key => key

/-- What is written under the key. -/
def written? : Edit → Option Property
  | .define _ property => some property
  | .assign _ value _ => some (.writable value)
  | .delete _ => none

/-- Edits an object, and says whether it was done. -/
def perform (r : Runner) (o : ObjectId) : Edit → Eval Bool
  | .define key property => do
      Eval.define o key property
      return true
  | .assign key value receiver => do
      r.assignProperty o key value receiver
      return true
  | .delete key => Eval.deleteProperty (.object o) key

/-- An assignment writes an own value: what it finds on the prototypes is absent or writable. -/
def Writable (m : Machine) (o : ObjectId) : Edit → Prop
  | .assign key _ _ => m.property o key = .absent ∨ ∃ old, m.property o key = .found (.writable old)
  | .define .. | .delete _ => True

/-- Whether a table refuses the edit: a read-only value is not deleted. -/
def isRefused (t : Table Property) (e : Edit) : Bool :=
  e.written?.isNone && (t.get? e.key).any Property.isReadOnly

/-- What the edit makes of a table. -/
def applied (t : Table Property) (e : Edit) : Table Property :=
  match e.written? with
  | some property => t.insert e.key property
  | none => if e.isRefused t then t else t.erase e.key

theorem isRefused_iff {t : Table Property} {e : Edit} :
    e.isRefused t = true ↔ e.written? = none ∧ ∃ v, t.get? e.key = some (.readOnly v) := by
  simp only [isRefused, Bool.and_eq_true, Option.isNone_iff_eq_none, Option.any_eq_true,
    Property.isReadOnly_iff]
  constructor
  · rintro ⟨deletes, _, found, v, rfl⟩
    exact ⟨deletes, v, found⟩
  · rintro ⟨deletes, v, found⟩
    exact ⟨deletes, _, found, v, rfl⟩

theorem applied_of_refused {t : Table Property} {e : Edit} (refused : e.isRefused t = true) :
    e.applied t = t := by
  obtain ⟨deletes, _⟩ := isRefused_iff.mp refused
  simp only [applied, deletes, refused, if_true]

theorem applied_of_done {t : Table Property} {e : Edit} (deletes : e.written? = none)
    (done : e.isRefused t = false) : e.applied t = t.erase e.key := by
  simp only [applied, deletes, done, Bool.false_eq_true, if_false]

variable {m : Machine} {o : ObjectId}

/-- An edit changes the table of its object and nothing else, whatever the interpreter. -/
theorem perform_eq {e : Edit} (writable : e.Writable m o) (r : Runner) :
    e.perform r o m = .value (!e.isRefused (m.object o).properties)
      (m.withTable o (e.applied (m.object o).properties)) := by
  cases e with
  | define key p => exact Eval.bind_of_value (Eval.define_eq o key p m)
  | assign key v receiver =>
      exact Eval.bind_of_value (r.assignProperty_of_writable writable v receiver)
  | delete key =>
      have entry : Eval.object o m = .value (m.object o) m := rfl
      have erased : (do Eval.erase o key; pure true : Eval Bool) m =
          .value true (m.withTable o ((m.object o).properties.erase key)) :=
        Eval.bind_of_value (Eval.erase_eq o key m)
      rw [perform, Eval.deleteProperty, Eval.bind_of_value entry]
      rcases found : (m.object o).properties.get? key with _ | ⟨v, _ | _⟩ | _
      case some.data.false =>
        have refused : (delete key).isRefused (m.object o).properties = true :=
          isRefused_iff.mpr ⟨rfl, v, found⟩
        rw [refused, applied_of_refused refused, m.withTable_self]
        rfl
      all_goals
        have done : (delete key).isRefused (m.object o).properties = false := by
          simp [isRefused, Edit.key, found, Property.isReadOnly]
        rw [done, applied_of_done rfl done]
        exact erased

variable {t : Table Property} {e : Edit}

/-- What is written is there, in its place or last. -/
theorem applied_of_written {p : Property} (writes : e.written? = some p) :
    (e.applied t).get? e.key = some p ∧
      (e.applied t).keys = if e.key ∈ t.keys then t.keys else t.keys ++ [e.key] := by
  rw [applied, writes]
  exact ⟨by simp, t.keys_insert e.key p⟩

theorem get?_applied_of_ne {key : String} (other : key ≠ e.key) :
    (e.applied t).get? key = t.get? key := by
  rw [applied]
  split
  · simp [other]
  · split
    · rfl
    · simp [other]

end Edit

/-! ## What is held under a key -/

/-- What is known of a key that is there: the moment at which it came in, and what was last written
under it. -/
structure Held where
  since : Nat
  property : Property

/-- What an edit at a moment makes of what is known of a key.  A key that is there keeps its moment
when it is written, and a read-only value is not deleted. -/
def Edit.hold (now : Nat) (e : Edit) (key : String) (held : Option Held) : Option Held :=
  if key ≠ e.key then held
  else
    match e.written? with
    | some property => some ⟨(held.map Held.since).getD now, property⟩
    | none => held.filter (·.property.isReadOnly)

/-- What is known of a key after edits, the first of them at a moment. -/
def heldAfter (key : String) : List Edit → Nat → Option Held → Option Held
  | [], _, held => held
  | e :: rest, now, held => heldAfter key rest (now + 1) (e.hold now key held)

namespace Table

/-- The keys of a table came in one after the other. -/
def held (t : Table Property) (key : String) : Option Held :=
  (t.get? key).map fun property => ⟨t.keys.idxOf key, property⟩

/-- What is known of a key of an object that had the table before the edits. -/
def history (t : Table Property) (edits : List Edit) (key : String) : Option Held :=
  heldAfter key edits t.keys.length (t.held key)

/-- The table has the keys that are held, with what is held, in the order of their moments.  All of
these are before `now`. -/
structure DatedBy (t : Table Property) (now : Nat) (held : String → Option Held) : Prop where
  property : ∀ key, t.get? key = (held key).map Held.property
  order : t.keys.Pairwise fun a b => ∀ h h', held a = some h → held b = some h' → h.since < h'.since
  past : ∀ key h, held key = some h → h.since < now

end Table

/-! ## One edit after the other -/

namespace Edit

variable {e : Edit} {now : Nat} {key : String} {held : Option Held}

theorem hold_of_ne (other : key ≠ e.key) : e.hold now key held = held := if_pos other

theorem hold_of_written {p : Property} (writes : e.written? = some p) :
    e.hold now e.key held = some ⟨(held.map Held.since).getD now, p⟩ := by
  simp [hold, writes]

theorem hold_of_deletes (deletes : e.written? = none) :
    e.hold now e.key held = held.filter (·.property.isReadOnly) := by
  simp [hold, deletes]

/-- A key keeps its moment, or it comes in now. -/
theorem since_of_hold {h' : Held} (holds : e.hold now key held = some h') :
    (∃ h, held = some h ∧ h.since = h'.since) ∨ held = none ∧ h'.since = now := by
  by_cases other : key ≠ e.key
  · rw [hold_of_ne other] at holds
    exact .inl ⟨h', holds, rfl⟩
  · obtain rfl : key = e.key := not_not.mp other
    cases writes : e.written? with
    | some p =>
        rw [hold_of_written writes] at holds
        cases holds
        cases held with
        | none => exact .inr ⟨rfl, rfl⟩
        | some h => exact .inl ⟨h, rfl, rfl⟩
    | none =>
        rw [hold_of_deletes writes] at holds
        exact .inl ⟨h', (Option.filter_eq_some_iff.mp holds).1, rfl⟩

end Edit

namespace Table.DatedBy

variable {t : Table Property} {now : Nat} {held : String → Option Held}

theorem held_of_mem (dated : t.DatedBy now held) {key : String} (mem : key ∈ t.keys) :
    ∃ h, held key = some h := by
  cases known : held key with
  | some h => exact ⟨h, rfl⟩
  | none =>
      have absent : t.get? key = none := by rw [dated.property, known, Option.map_none]
      exact absurd mem (get?_eq_none_iff.mp absent)

/-- No key has two moments. -/
theorem distinct (dated : t.DatedBy now held) : t.Distinct := by
  refine dated.order.imp_of_mem fun {a b} mem _ earlier same => ?_
  subst same
  obtain ⟨h, known⟩ := dated.held_of_mem mem
  exact Nat.lt_irrefl _ (earlier h h known known)

/-- The entries of a table without double keys are in order. -/
theorem start (distinct : t.Distinct) : t.DatedBy t.keys.length t.held := by
  constructor
  · intro key
    simp [Table.held, Function.comp_def]
  · refine List.pairwise_iff_getElem.mpr fun i j hi hj less h h' known known' => ?_
    obtain ⟨_, _, rfl⟩ := Option.map_eq_some_iff.mp known
    obtain ⟨_, _, rfl⟩ := Option.map_eq_some_iff.mp known'
    simpa only [distinct.idxOf_getElem] using less
  · intro key h known
    obtain ⟨p, found, rfl⟩ := Option.map_eq_some_iff.mp known
    apply List.idxOf_lt_length_of_mem
    by_contra absent
    rw [get?_eq_none_iff.mpr absent] at found
    cases found

/-- What is held under each key after an edit. -/
theorem property_edit (dated : t.DatedBy now held) (e : Edit) (key : String) :
    (e.applied t).get? key = (e.hold now key (held key)).map Held.property := by
  by_cases other : key ≠ e.key
  · rw [Edit.get?_applied_of_ne other, Edit.hold_of_ne other, dated.property]
  · obtain rfl : key = e.key := not_not.mp other
    cases writes : e.written? with
    | some p =>
        rw [(Edit.applied_of_written writes).1, Edit.hold_of_written writes]
        rfl
    | none =>
        have known := dated.property e.key
        rw [Edit.hold_of_deletes writes]
        cases refused : e.isRefused t with
        | true =>
            obtain ⟨_, v, found⟩ := Edit.isRefused_iff.mp refused
            rw [Edit.applied_of_refused refused, found]
            obtain ⟨h, same, readOnly⟩ := Option.map_eq_some_iff.mp (known.symm.trans found)
            simp [same, readOnly, Property.isReadOnly]
        | false =>
            rw [Edit.applied_of_done writes refused]
            have done : ((held e.key).map Held.property).any Property.isReadOnly = false := by
              simpa [Edit.isRefused, writes, known] using refused
            cases entry : held e.key with
            | none => simp
            | some h =>
                rw [entry] at done
                simpa using done

/-- An edit keeps a table in the order of its moments. -/
theorem edit (dated : t.DatedBy now held) (e : Edit) :
    (e.applied t).DatedBy (now + 1) fun key => e.hold now key (held key) := by
  -- a key of the table keeps its moment, whatever the edit
  have kept {key : String} (mem : key ∈ t.keys) {h' : Held}
      (holds : e.hold now key (held key) = some h') :
      ∃ h, held key = some h ∧ h.since = h'.since := by
    obtain ⟨h, known⟩ := dated.held_of_mem mem
    rcases Edit.since_of_hold holds with old | ⟨absent, _⟩
    · exact old
    · cases known.symm.trans absent
  have aged : t.keys.Pairwise fun a b => ∀ h h', e.hold now a (held a) = some h →
      e.hold now b (held b) = some h' → h.since < h'.since := by
    refine dated.order.imp_of_mem fun {a b} mem mem' earlier h h' holds holds' => ?_
    obtain ⟨old, known, since⟩ := kept mem holds
    obtain ⟨old', known', since'⟩ := kept mem' holds'
    rw [← since, ← since']
    exact earlier old old' known known'
  constructor
  · exact dated.property_edit e
  · cases writes : e.written? with
    | some p =>
        rw [(Edit.applied_of_written writes).2]
        split
        next => exact aged
        next new =>
          refine List.pairwise_append.mpr ⟨aged, List.pairwise_singleton .., ?_⟩
          intro a mem b last h h' holds holds'
          obtain ⟨old, known, since⟩ := kept mem holds
          have before := dated.past a old known
          rw [List.mem_singleton.mp last] at holds'
          rcases Edit.since_of_hold holds' with ⟨h₀, known, _⟩ | ⟨_, since'⟩
          · have found := dated.property e.key
            rw [known, Option.map_some] at found
            exact absurd (get?_eq_none_iff.mpr new) (by simp [found])
          · omega
    | none =>
        cases refused : e.isRefused t with
        | true =>
            rw [Edit.applied_of_refused refused]
            exact aged
        | false =>
            rw [Edit.applied_of_done writes refused, keys_erase]
            exact aged.filter _
  · intro key h' holds
    rcases Edit.since_of_hold holds with ⟨h, known, since⟩ | ⟨_, since⟩
    · have before := dated.past key h known
      omega
    · omega

end Table.DatedBy

/-! ## Many edits -/

/-- Edits of an object, one after the other.  Between them anything may happen that leaves the
object itself alone. -/
inductive Machine.Edited (o : ObjectId) : Machine → List Edit → Machine → Prop where
  | nothing {m : Machine} : Edited o m [] m
  | elsewhere {m m₁ m' : Machine} {edits : List Edit} (same : m₁.object o = m.object o)
      (inside : o.index < m₁.objects.size) (later : Edited o m₁ edits m') : Edited o m edits m'
  | edit {m m₁ m' : Machine} {e : Edit} {edits : List Edit} {answer : Bool}
      (writable : e.Writable m o) (r : Runner) (done : e.perform r o m = .value answer m₁)
      (later : Edited o m₁ edits m') : Edited o m (e :: edits) m'

/-- Edits keep a table in the order of its moments. -/
theorem Machine.Edited.datedBy {o : ObjectId} {m m' : Machine} {edits : List Edit}
    (edited : m.Edited o edits m') (inside : o.index < m.objects.size) {now : Nat}
    {held : String → Option Held} (dated : (m.object o).properties.DatedBy now held) :
    (m'.object o).properties.DatedBy (now + edits.length)
      fun key => heldAfter key edits now (held key) := by
  induction edited generalizing now held with
  | nothing => exact dated
  | elsewhere same inside₁ _ ih =>
      rw [← same] at dated
      exact ih inside₁ dated
  | @edit m m₁ m' e edits answer writable r done _ ih =>
      rw [Edit.perform_eq writable] at done
      cases done
      have step := dated.edit e
      rw [List.length_cons, Nat.add_comm edits.length, ← Nat.add_assoc]
      apply ih
      · rw [Machine.size_withTable]
        exact inside
      · rw [Machine.object_withTable inside]
        exact step

/-- No table has a key twice, on the machine that sessions start from and on whatever an operation
makes of a machine where none has.  An edit of an object changes its table only.  What is written
takes the place that its key has, or comes last if the key is new.  A deletion is refused exactly
when the entry is a read-only value, and then changes nothing; otherwise it takes the key away and
leaves the others in their order.  So after any edits the table has what was last written under each
key that is there, and the keys stand in the order in which they last came in. -/
theorem tables_insertion_ordered :
    Realm.machine.DistinctKeys ∧
    ∀ m : Machine, m.DistinctKeys →
      (∀ (settings : Settings) (fuel : Nat) (α : Type) (op : Operation α),
        (op.perform (settings.runner fuel) m).machine.DistinctKeys) ∧
      ∀ o : ObjectId, o.index < m.objects.size →
        (∀ e : Edit, e.Writable m o → ∃ answer t,
          (∀ r, e.perform r o m = .value answer (m.withTable o t)) ∧
          (∀ p, e.written? = some p → answer = true ∧ t.get? e.key = some p ∧
            t.keys = if e.key ∈ (m.object o).properties.keys then (m.object o).properties.keys
              else (m.object o).properties.keys ++ [e.key]) ∧
          (e.written? = none →
            (answer = false ↔ ∃ v, (m.object o).properties.get? e.key = some (.readOnly v)) ∧
            (answer = false → m.withTable o t = m) ∧
            (answer = true → t.keys = (m.object o).properties.keys.filter (· ≠ e.key))) ∧
          ∀ key, key ≠ e.key → t.get? key = (m.object o).properties.get? key) ∧
        ∀ edits m', m.Edited o edits m' →
          (m'.object o).properties.keys.Nodup ∧
          (∀ key, (m'.object o).properties.get? key =
            ((m.object o).properties.history edits key).map Held.property) ∧
          (m'.object o).properties.keys.Pairwise fun a b => ∀ h h',
            (m.object o).properties.history edits a = some h →
            (m.object o).properties.history edits b = some h' → h.since < h'.since := by
  refine ⟨Realm.machine_distinctKeys, fun m distinct => ⟨?_, fun o inside => ⟨?_, ?_⟩⟩⟩
  · intro settings fuel α op
    exact op.perform_distinctKeys distinct settings fuel
  · intro e writable
    refine ⟨_, _, Edit.perform_eq writable, ?_, ?_, fun key => Edit.get?_applied_of_ne⟩
    · intro p writes
      have kept : e.isRefused (m.object o).properties = false := by simp [Edit.isRefused, writes]
      exact ⟨by rw [kept]; rfl, Edit.applied_of_written writes⟩
    · intro deletes
      have refused := Edit.isRefused_iff (t := (m.object o).properties) (e := e)
      simp only [Bool.not_eq_false', Bool.not_eq_true']
      refine ⟨?_, ?_, ?_⟩
      · rw [refused]
        simp [deletes]
      · intro yes
        rw [Edit.applied_of_refused yes, m.withTable_self]
      · intro no
        rw [Edit.applied_of_done deletes no, Table.keys_erase]
  · intro edits m' edited
    have dated := edited.datedBy inside (.start (distinct o))
    exact ⟨dated.distinct, dated.property, dated.order⟩

/-- A machine with an object that has a value under `a` and a constant under `b`. -/
def twoEntries : Machine :=
  { Machine.empty with
    objects := #[⟨none, .ofList [("a", .writable .null), ("b", .readOnly .null)], .ordinary⟩] }

/-- `delete o.b; delete o.a; o.c = true; o.a = false;` -/
def reinsertion : List Edit :=
  [.delete "b", .delete "a", .assign "c" (.bool true) (.object ⟨0⟩),
    .assign "a" (.bool false) (.object ⟨0⟩)]

/-- The constant stays, and the key that comes back is the last. -/
theorem tables_insertion_ordered_reinserted :
    twoEntries.DistinctKeys ∧ ∃ m', twoEntries.Edited ⟨0⟩ reinsertion m' ∧
      (m'.object ⟨0⟩).properties.keys = ["b", "c", "a"] ∧ (m'.object ⟨0⟩).properties.keys.Nodup ∧
      (m'.object ⟨0⟩).properties.get? "a" = some (.writable (.bool false)) ∧
      (m'.object ⟨0⟩).properties.get? "b" = some (.readOnly .null) := by
  have distinct : twoEntries.DistinctKeys := by
    rintro ⟨_ | i⟩
    · exact .ofList _
    · exact .empty
  have inside : (ObjectId.mk 0).index < twoEntries.objects.size := by decide
  obtain ⟨_, edits⟩ := (tables_insertion_ordered.2 twoEntries distinct).2 ⟨0⟩ inside
  let r : Runner := ⟨.standard, 0, fun _ => Eval.exhausted⟩
  have edited : twoEntries.Edited ⟨0⟩ reinsertion _ :=
    .edit trivial r rfl <| .edit trivial r rfl <| .edit (.inl rfl) r rfl <|
      .edit (.inl rfl) r rfl .nothing
  obtain ⟨nodup, property, _⟩ := edits reinsertion _ edited
  exact ⟨distinct, _, edited, rfl, nodup, property "a", property "b"⟩

end ScriptTree
