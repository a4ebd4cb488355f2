import ScriptTree.Property
import ScriptTree.Proofs.Discipline
import ScriptTree.Proofs.References
import ScriptTree.Proofs.Walks

/-!
# Properties along the prototype chain

*Chains.*  `Machine.Chain` lists the objects from one to the end of its prototypes.  The walk of a
machine finds the first property on it (`Chain.property`).

*Writes.*  What a write does depends on the first property on the chain only.  An absent or writable
one is written over in the table of the object itself, and nothing else changes
(`Machine.Overwrites`); a read-only one or an accessor without a setter keeps the machine as it is;
and a setter is called (`assignProperty_by_first`).
-/

namespace ScriptTree

/-! ## Chains -/

/-- The objects from one to the end of its prototypes. -/
inductive Machine.Chain (m : Machine) : ObjectId → List ObjectId → Prop where
  | last {o : ObjectId} : (m.object o).prototype = none → m.Chain o [o]
  | link {o p : ObjectId} {rest : List ObjectId} : m.Inherits o p → m.Chain p rest →
      m.Chain o (o :: rest)

/-- The first property for a key among those of some objects. -/
def Machine.firstOf (m : Machine) (objects : List ObjectId) (key : String) : Option Property :=
  objects.findSome? fun o => (m.object o).own? key

namespace Machine.Chain

variable {m : Machine} {o : ObjectId} {objects : List ObjectId}

/-- The walk of a machine finds the first property on the chain. -/
theorem property (h : m.Chain o objects) (key : String) :
    m.property o key = .ofOption (m.firstOf objects key) := by
  induction h with
  | @last o none =>
      rw [m.property_eq, none, firstOf, List.findSome?_singleton]
      cases (m.object o).own? key <;> rfl
  | @link o p rest inherits _ ih =>
      have prototype : (m.object o).prototype = some p := inherits
      rw [m.property_eq, prototype, firstOf, List.findSome?_cons]
      cases (m.object o).own? key with
      | some property => rfl
      | none => exact ih

/-- The first property of a chain is that of the object itself if it has one. -/
theorem firstOf_own (h : m.Chain o objects) {key : String} {p : Property}
    (own : (m.object o).own? key = some p) : m.firstOf objects key = some p := by
  cases h with
  | last _ => rw [firstOf, List.findSome?_cons, own]
  | link _ _ => rw [firstOf, List.findSome?_cons, own]

end Machine.Chain

theorem Eval.property?_of_chain {m : Machine} {o : ObjectId} {objects : List ObjectId}
    (chain : m.Chain o objects) (key : String) :
    Eval.property? o key m = .value (m.firstOf objects key) m := by
  rw [Eval.property?, Eval.search, chain.property key]
  cases m.firstOf objects key <;> rfl

/-! ## One entry -/

/-- Nothing has changed but one entry of the table of an object.  It is now a writable value, in its
place if it was there and last if it is new. -/
structure Machine.Overwrites (m : Machine) (o : ObjectId) (key : String) (v : Value)
    (m' : Machine) : Prop where
  inPlace : ∀ before old after, (m.object o).properties.entries = before ++ (key, old) :: after →
    key ∉ before.map Prod.fst →
      (m'.object o).properties.entries = before ++ (key, .writable v) :: after
  last : key ∉ (m.object o).properties.keys →
    (m'.object o).properties.entries = (m.object o).properties.entries ++ [(key, .writable v)]
  prototype : (m'.object o).prototype = (m.object o).prototype
  kind : (m'.object o).kind = (m.object o).kind
  others : ∀ q, q ≠ o → m'.object q = m.object q
  size : m'.objects.size = m.objects.size
  scopes : m'.scopes = m.scopes
  stack : m'.stack = m.stack
  console : m'.console = m.console
  clock : m'.clock = m.clock

theorem Machine.overwrites_define {m : Machine} {o : ObjectId} (inside : o.index < m.objects.size)
    (key : String) (v : Value) :
    m.Overwrites o key v (m.modifyObject o fun object => object.define key (.writable v)) := by
  have changed : (m.modifyObject o fun object => object.define key (.writable v)).object o =
      (m.object o).define key (.writable v) := by
    rw [object_modify, if_pos ⟨rfl, inside⟩]
  constructor
  · intro before old after entries first
    rw [changed, Object.define, Table.insert, entries]
    exact Table.insertEntry_append_cons old (.writable v) first
  · intro new
    rw [changed]
    exact Table.insertEntry_of_notMem (.writable v) new
  · rw [changed, Object.define]
  · rw [changed, Object.define]
  · intro q other
    rw [object_modify, if_neg fun same => other same.1]
  · exact Array.size_modify ..
  all_goals rfl

/-! ## Writes -/

/-- The outcome without its value. -/
def Outcome.ignore {α : Type} : Outcome α → Outcome Unit
  | .value _ m => .value () m
  | .fault f m => .fault f m
  | .exhausted m => .exhausted m

/-- A property that a write replaces by an own value: one that is absent or may be overwritten. -/
def Property.yields : Option Property → Prop
  | none | some (.data _ true) => True
  | some (.data _ false) | some (.accessor ..) => False

/-- What an object that is not of the embedder shows by its kind is read-only. -/
theorem ObjectKind.readOnly_of_property? {kind : ObjectKind} {key : String} {p : Property}
    (notHost : ∀ table, kind ≠ .host table) (h : kind.property? key = some p) :
    ∃ v, p = .readOnly v := by
  cases kind with
  | ordinary => cases h
  | function c => cases h
  | host table => exact absurd rfl (notHost table)
  | boxed primitive =>
      cases primitive with
      | string s =>
          obtain ⟨value, rfl⟩ := textProperty?_eq_some h
          exact ⟨_, rfl⟩
      | undefined => cases h
      | null => cases h
      | bool b => cases h
      | number x => cases h

namespace Machine

variable {m m' : Machine} {o : ObjectId} {objects : List ObjectId} {key : String} {v : Value}

/-- Where a write replaces the first property, the table of the object is what counts. -/
theorem shows_nothing (chain : m.Chain o objects)
    (notHost : ∀ table, (m.object o).kind ≠ .host table)
    (yields : Property.yields (m.firstOf objects key)) :
    (m.object o).kind.property? key = none := by
  cases shown : (m.object o).kind.property? key with
  | none => rfl
  | some p =>
      obtain ⟨value, rfl⟩ := ObjectKind.readOnly_of_property? notHost shown
      have own : (m.object o).own? key = some (.readOnly value) := by rw [Object.own?, shown]
      rw [chain.firstOf_own own] at yields
      exact yields.elim

/-- The entry that was written is the first property for its key. -/
theorem property_define (inside : o.index < m.objects.size)
    (nothing : (m.object o).kind.property? key = none) :
    (m.modifyObject o fun object => object.define key (.writable v)).property o key =
      .found (.writable v) := by
  have own : ((m.modifyObject o fun object => object.define key (.writable v)).object o).own? key =
      some (.writable v) := by
    rw [object_modify, if_pos ⟨rfl, inside⟩, Object.own?, Object.define, nothing]
    simp
  rw [Machine.property, propertyWithin, own]

end Machine

namespace Runner

variable {m : Machine} {o : ObjectId} {objects : List ObjectId} {key : String} {v : Value}

theorem assignProperty_of_yields (chain : m.Chain o objects)
    (yields : Property.yields (m.firstOf objects key)) (r : Runner) (receiver : Value) :
    r.assignProperty o key v receiver m =
      .value () (m.modifyObject o fun object => object.define key (.writable v)) := by
  rw [assignProperty, Eval.bind_of_value (Eval.property?_of_chain chain key)]
  match found : m.firstOf objects key with
  | none => rfl
  | some (.data _ true) => rfl
  | some (.data _ false) | some (.accessor ..) =>
      rw [found] at yields
      exact yields.elim

theorem readProperty_define (inside : o.index < m.objects.size)
    (nothing : (m.object o).kind.property? key = none) (r : Runner) (receiver : Value) :
    r.readProperty o key receiver
        (m.modifyObject o fun object => object.define key (.writable v)) =
      .value v (m.modifyObject o fun object => object.define key (.writable v)) := by
  have found : Eval.property? o key
      (m.modifyObject o fun object => object.define key (.writable v)) =
        .value (some (.writable v))
          (m.modifyObject o fun object => object.define key (.writable v)) := by
    rw [Eval.property?, Eval.search, Machine.property_define inside nothing]
  rw [readProperty, Eval.bind_of_value found]
  rfl

/-- A read-only value ignores the write. -/
theorem assignProperty_of_readOnly (chain : m.Chain o objects) {old : Value}
    (first : m.firstOf objects key = some (.readOnly old)) (r : Runner) (receiver : Value) :
    r.assignProperty o key v receiver m = .value () m := by
  rw [assignProperty, Eval.bind_of_value (Eval.property?_of_chain chain key), first]
  rfl

/-- An accessor without a setter ignores the write, and one with a setter hands it on. -/
theorem assignProperty_of_accessor (chain : m.Chain o objects) {getter setter : Value}
    (first : m.firstOf objects key = some (.accessor getter setter)) (r : Runner)
    (receiver : Value) :
    r.assignProperty o key v receiver m =
      if setter.isUndefined then .value () m else (r.call setter receiver [v] m).ignore := by
  rw [assignProperty, Eval.bind_of_value (Eval.property?_of_chain chain key), first]
  by_cases undefined : setter.isUndefined = true
  · simp only [if_pos undefined]
    rfl
  · simp only [if_neg undefined]
    cases ends : r.call setter receiver [v] m with
    | value a n => exact Eval.bind_of_value ends
    | fault f n => exact Eval.bind_of_fault ends
    | exhausted n => exact Eval.bind_of_exhausted ends

end Runner

/-- A write to an object follows the first property on its chain.  If that is absent or writable, one
entry of the object is written, whatever the interpreter, and it reads back.  If it is read-only or
an accessor without a setter, nothing happens.  A setter is called with the receiver and the
value. -/
theorem assignProperty_by_first {m : Machine} {o : ObjectId} {objects : List ObjectId}
    (inside : o.index < m.objects.size) (chain : m.Chain o objects)
    (notHost : ∀ table, (m.object o).kind ≠ .host table) (key : String) (v : Value) :
    (m.firstOf objects key = none ∨ (∃ old, m.firstOf objects key = some (.writable old)) →
      ∃ m', m.Overwrites o key v m' ∧
        (m'.object o).properties.get? key = some (.writable v) ∧
        ∀ (r : Runner) (receiver : Value),
          r.assignProperty o key v receiver m = .value () m' ∧
          r.readProperty o key receiver m' = .value v m') ∧
    ((∃ old, m.firstOf objects key = some (.readOnly old)) ∨
        (∃ getter, m.firstOf objects key = some (.accessor getter .undefined)) →
      ∀ (r : Runner) (receiver : Value), r.assignProperty o key v receiver m = .value () m) ∧
    ∀ getter setter, m.firstOf objects key = some (.accessor getter setter) →
      setter ≠ .undefined → ∀ (r : Runner) (receiver : Value),
        r.assignProperty o key v receiver m = (r.call setter receiver [v] m).ignore := by
  refine ⟨fun first => ?_, fun first r receiver => ?_, fun getter setter first ne r receiver => ?_⟩
  · have yields : Property.yields (m.firstOf objects key) := by
      rcases first with first | ⟨old, first⟩
      · rw [first]
        exact trivial
      · rw [first]
        exact trivial
    have nothing := Machine.shows_nothing chain notHost yields
    refine ⟨_, Machine.overwrites_define inside key v, ?_, fun r receiver => ⟨?_, ?_⟩⟩
    · rw [Machine.object_modify, if_pos ⟨rfl, inside⟩, Object.define]
      simp
    · exact Runner.assignProperty_of_yields chain yields r receiver
    · exact Runner.readProperty_define inside nothing r receiver
  · rcases first with ⟨old, first⟩ | ⟨getter, first⟩
    · exact Runner.assignProperty_of_readOnly chain first r receiver
    · exact Runner.assignProperty_of_accessor chain first r receiver
  · have defined : setter.isUndefined = false := by
      unfold Value.isUndefined
      split
      next => exact absurd rfl ne
      next => rfl
    rw [Runner.assignProperty_of_accessor chain first r receiver, defined]
    rfl

/-- A machine with an object that has a writable `x`, and the box of a text that inherits from it. -/
def boxedMachine : Machine :=
  { Machine.empty with
    objects := #[⟨none, .ofList [("x", .writable .null)], .ordinary⟩,
      ⟨some ⟨0⟩, .ofList [("y", .writable .null)], .boxed (.string "text")⟩] }

/-- The box gets an `x` of its own after its `y`, and keeps the length of its text. -/
theorem assignProperty_by_first_boxed :
    boxedMachine.Chain ⟨1⟩ [⟨1⟩, ⟨0⟩] ∧
    (∃ m', (∀ r receiver, Runner.assignProperty r ⟨1⟩ "x" (.bool true) receiver boxedMachine =
        .value () m') ∧
      (m'.object ⟨1⟩).properties.entries =
        [("y", .writable .null), ("x", .writable (.bool true))] ∧
      m'.object ⟨0⟩ = boxedMachine.object ⟨0⟩) ∧
    ∀ r receiver, Runner.assignProperty r ⟨1⟩ "length" (.bool true) receiver boxedMachine =
      .value () boxedMachine := by
  have inside : (ObjectId.mk 1).index < boxedMachine.objects.size := by decide
  have chain : boxedMachine.Chain ⟨1⟩ [⟨1⟩, ⟨0⟩] := .link rfl (.last rfl)
  have notHost (table : HostTable) : (boxedMachine.object ⟨1⟩).kind ≠ .host table := by
    intro host
    cases host
  obtain ⟨m', overwrites, _, writes⟩ :=
    (assignProperty_by_first inside chain notHost "x" (.bool true)).1 (.inr ⟨.null, rfl⟩)
  refine ⟨chain, ⟨m', fun r receiver => (writes r receiver).1, ?_, ?_⟩, ?_⟩
  · exact overwrites.last (by decide)
  · exact overwrites.others ⟨0⟩ (by decide)
  · exact (assignProperty_by_first inside chain notHost "length" (.bool true)).2.1 (.inl ⟨_, rfl⟩)

end ScriptTree
