import ScriptTree.Proofs.Kinds
import ScriptTree.Proofs.Walks

/-!
# Primitives and their boxes

A primitive is read without a box: its own properties and those of the prototype that belongs to it
are looked up directly.  The result is that of reading the box, with the primitive in the place of
the receiver (`Boxes.getProperty_primitive`).  So the two reads find the same property and have the
same value, and a getter sees the difference only by its receiver.

Asking for an own property converts the key first.  That can run script, and only there the two
differ: a primitive cannot be given a property meanwhile, and a box can
(`Boxes.hasOwnProperty_iff`).
-/

namespace ScriptTree

/-! ## Boxes -/

/-- The object is a box of the primitive as it was made, without entries of its own. -/
structure Machine.Boxes (m : Machine) (b : ObjectId) (p : Primitive) : Prop where
  prototype : (m.object b).prototype = p.prototype?
  properties : (m.object b).properties = .empty
  kind : (m.object b).kind = .boxed p

/-- The first property for a key that a primitive shows: one of its own, or else the first one on
the chain of the prototype that belongs to it. -/
def Machine.propertyOf (m : Machine) (p : Primitive) (key : String) : Search Property :=
  match p.property? key with
  | some property => .found property
  | none =>
      match p.prototype? with
      | some prototype => m.property prototype key
      | none => .absent

/-- Boxing adds one object to the heap, the box. -/
theorem Eval.toObject_primitive {p : Primitive} (boxable : p.prototype?.isSome = true)
    (m : Machine) :
    toObject (.primitive p) m = .value ⟨m.objects.size⟩
      { m with objects := m.objects.push ⟨p.prototype?, .empty, .boxed p⟩ } := by
  cases p with
  | undefined => cases boxable
  | null => cases boxable
  | bool b => rfl
  | number x => rfl
  | string s => rfl

theorem Machine.boxes_push (m : Machine) (p : Primitive) :
    Machine.Boxes { m with objects := m.objects.push ⟨p.prototype?, .empty, .boxed p⟩ }
      ⟨m.objects.size⟩ p := by
  have box : Machine.object { m with objects := m.objects.push ⟨p.prototype?, .empty, .boxed p⟩ }
      ⟨m.objects.size⟩ = ⟨p.prototype?, .empty, .boxed p⟩ := by
    rw [object_push, if_pos rfl]
  constructor
  · rw [box]
  · rw [box]
  · rw [box]

/-- A box shows by its kind what its primitive has by itself. -/
theorem ObjectKind.property?_boxed (p : Primitive) (key : String) :
    ObjectKind.property? (.boxed p) key = p.property? key := by
  cases p <;> rfl

namespace Machine.Boxes

variable {m : Machine} {b : ObjectId} {p : Primitive} (h : m.Boxes b p)
include h

theorem inside : b.index < m.objects.size := by
  by_contra past
  have kind := h.kind
  rw [m.object_default (Nat.le_of_not_lt past)] at kind
  cases kind

theorem own? (key : String) : (m.object b).own? key = p.property? key := by
  rw [Object.own?, h.kind, ObjectKind.property?_boxed, h.properties]
  cases p.property? key <;> rfl

/-- Box and primitive show the same first property. -/
theorem property (key : String) : m.property b key = m.propertyOf p key := by
  have first := m.property_eq b key
  rw [h.own?, h.prototype] at first
  rw [first]
  unfold propertyOf
  cases p.property? key with
  | some property => rfl
  | none => cases p.prototype? <;> rfl

end Machine.Boxes

/-! ## Reads -/

/-- The value of a property when there is no getter to run for it. -/
def Property.plainValue? : Option Property → Option Value
  | none => some .undefined
  | some (.data value _) => some value
  | some (.accessor getter _) => if getter.isUndefined then some .undefined else none

namespace Runner

variable (r : Runner) (m : Machine) (key : String)

/-- The value of what a search has come to. -/
def valueFound (receiver : Value) : Search Property → Eval Value
  | .found property => r.valueOf receiver (some property)
  | .absent => r.valueOf receiver none
  | .endless => Eval.exhausted

theorem readProperty_eq (o : ObjectId) (receiver : Value) :
    r.readProperty o key receiver m = r.valueFound receiver (m.property o key) m := by
  have searched : Eval.property? o key m = Eval.search (fun _ => m.property o key) m := rfl
  rw [readProperty]
  cases found : m.property o key with
  | found property =>
      rw [found] at searched
      exact Eval.bind_of_value searched
  | absent =>
      rw [found] at searched
      exact Eval.bind_of_value searched
  | endless =>
      rw [found] at searched
      exact Eval.bind_of_exhausted searched

/-- A primitive that can be boxed is read by the first property it shows. -/
theorem getProperty_primitive {p : Primitive} (boxable : p.prototype?.isSome = true) :
    r.getProperty (.primitive p) key m =
      r.valueFound (.primitive p) (m.propertyOf p key) m := by
  obtain ⟨prototype, live⟩ := Option.isSome_iff_exists.mp boxable
  rw [getProperty, Machine.propertyOf, live]
  cases p.property? key with
  | some property => rfl
  | none => exact r.readProperty_eq m key prototype (.primitive p)

variable {r}

/-- A property without a getter has its value whoever reads it. -/
theorem valueFound_plain {found : Option Property} {v : Value}
    (plain : Property.plainValue? found = some v) (receiver : Value) :
    r.valueFound receiver (.ofOption found) = pure v := by
  cases found with
  | none =>
      cases plain
      rfl
  | some property =>
      cases property with
      | data value writable =>
          cases plain
          rfl
      | accessor getter setter =>
          simp only [Property.plainValue?] at plain
          split at plain
          next undefined =>
            cases plain
            exact if_pos undefined
          next => cases plain

/-- A getter runs with the reader as its receiver. -/
theorem valueFound_getter {getter : Value} (defined : getter ≠ .undefined)
    (setter receiver : Value) :
    r.valueFound receiver (.found (.accessor getter setter)) = r.call getter receiver [] := by
  have notUndefined : ¬getter.isUndefined = true := by
    intro undefined
    unfold Value.isUndefined at undefined
    split at undefined
    next => exact defined rfl
    next => cases undefined
  exact if_neg notUndefined

/-- After the conversion of the key, a primitive answers for itself. -/
theorem hasOwnProperty_primitive {p : Primitive} (boxable : p.prototype?.isSome = true)
    {arguments : List Value} {m n : Machine} {key : String}
    (converted : r.toKey (argument arguments 0) m = .value key n) :
    r.hasOwnProperty (.primitive p) arguments m = .value (.bool (p.property? key).isSome) n := by
  obtain ⟨prototype, live⟩ := Option.isSome_iff_exists.mp boxable
  rw [hasOwnProperty, Eval.bind_of_value converted]
  simp only [live, Option.isNone_some]
  rfl

end Runner

namespace Machine.Boxes

variable {m : Machine} {b : ObjectId} {p : Primitive} (h : m.Boxes b p)
include h

/-- A primitive is read as its box is, with the primitive as the receiver. -/
theorem getProperty_primitive (boxable : p.prototype?.isSome = true) (r : Runner) (key : String) :
    r.getProperty (.primitive p) key m = r.readProperty b key (.primitive p) m := by
  rw [r.getProperty_primitive m key boxable, r.readProperty_eq, h.property]

/-! ## Own properties -/

/-- Running script leaves a box a box of its primitive. -/
theorem kind_of_toKey {settings : Settings} {fuel : Nat} {v : Value} {key : String} {n : Machine}
    (converted : (settings.runner fuel).toKey v m = .value key n) :
    (n.object b).kind = .boxed p := by
  have kept := (Operation.toText v).perform_kinds m settings fuel
  have left : ((Operation.toText v).perform (settings.runner fuel) m).machine = n :=
    congrArg Outcome.machine converted
  rw [left] at kept
  have other : (Operation.toText v).footprint.target ≠ some b := by
    intro same
    cases same
  rw [kept.kind b h.inside other, h.kind]

/-- A box answers for its primitive and for the entries it has got. -/
theorem hasOwnProperty_box {settings : Settings} {fuel : Nat} {arguments : List Value}
    {key : String} {n : Machine}
    (converted : (settings.runner fuel).toKey (argument arguments 0) m = .value key n) :
    (settings.runner fuel).hasOwnProperty (.object b) arguments m =
      .value (.bool ((p.property? key).isSome || (n.object b).properties.contains key)) n := by
  rw [Runner.hasOwnProperty, Eval.bind_of_value converted]
  show Outcome.value (Value.bool ((n.object b).own? key).isSome) n = _
  rw [Object.own?, h.kind_of_toKey converted, ObjectKind.property?_boxed]
  cases p.property? key <;> rfl

/-- Primitive and box give the same answer unless the conversion of the key has put an entry for
that very key on the box. -/
theorem hasOwnProperty_iff (boxable : p.prototype?.isSome = true) (settings : Settings)
    (fuel : Nat) (arguments : List Value) :
    (settings.runner fuel).hasOwnProperty (.primitive p) arguments m =
        (settings.runner fuel).hasOwnProperty (.object b) arguments m ↔
      ∀ key n, (settings.runner fuel).toKey (argument arguments 0) m = .value key n →
        (n.object b).properties.contains key = true → (p.property? key).isSome = true := by
  cases converted : (settings.runner fuel).toKey (argument arguments 0) m with
  | value key n =>
      rw [Runner.hasOwnProperty_primitive boxable converted, h.hasOwnProperty_box converted]
      cases own : (p.property? key).isSome <;> simp [own]
  | fault f n =>
      have ends (receiver : Value) :
          (settings.runner fuel).hasOwnProperty receiver arguments m = .fault f n :=
        Eval.bind_of_fault converted
      simp [ends]
  | exhausted n =>
      have ends (receiver : Value) :
          (settings.runner fuel).hasOwnProperty receiver arguments m = .exhausted n :=
        Eval.bind_of_exhausted converted
      simp [ends]

/-- A key that is a primitive runs no script. -/
theorem hasOwnProperty_of_primitive (boxable : p.prototype?.isSome = true) (settings : Settings)
    (fuel : Nat) {arguments : List Value} {q : Primitive}
    (key : argument arguments 0 = .primitive q) :
    (settings.runner fuel).hasOwnProperty (.primitive p) arguments m =
      (settings.runner fuel).hasOwnProperty (.object b) arguments m := by
  refine (h.hasOwnProperty_iff boxable settings fuel arguments).mpr ?_
  intro text n converted entry
  rw [key] at converted
  cases converted
  rw [h.properties] at entry
  cases entry

end Machine.Boxes

theorem Primitive.isSome_prototype? {p : Primitive} (h : p.isNullish = false) :
    p.prototype?.isSome = true := by
  cases p with
  | undefined => cases h
  | null => cases h
  | bool b => rfl
  | number x => rfl
  | string s => rfl

/-- Booleans, numbers and texts can be boxed, and that changes nothing but that the box is new.  For
every key, primitive and box show the same first property.  If it needs no getter, reading either
gives its value and runs no script; a getter is called with the one or the other as the receiver.
Asked for own properties, both convert the key and end alike, unless the conversion has given the
box an entry for that very key, which a key that is a primitive cannot. -/
theorem primitive_reads_as_box {p : Primitive} (notNullish : p.isNullish = false) :
    (∀ m : Machine, ∃ b m', Eval.toObject (.primitive p) m = .value b m' ∧ m'.Boxes b p ∧
      m' = { m with objects := m.objects.push (m'.object b) }) ∧
    ∀ (m : Machine) (b : ObjectId), m.Boxes b p →
      (∀ key, m.property b key = m.propertyOf p key) ∧
      (∀ (r : Runner) (key : String),
        r.getProperty (.primitive p) key m = r.readProperty b key (.primitive p) m ∧
        r.getProperty (.object b) key m = r.readProperty b key (.object b) m) ∧
      (∀ (r : Runner) (key : String) (found : Option Property) (v : Value),
        m.property b key = .ofOption found → Property.plainValue? found = some v →
          r.getProperty (.primitive p) key m = .value v m ∧
          r.getProperty (.object b) key m = .value v m) ∧
      (∀ (r : Runner) (key : String) (getter setter : Value),
        m.property b key = .found (.accessor getter setter) → getter ≠ .undefined →
          r.getProperty (.primitive p) key m = r.call getter (.primitive p) [] m ∧
          r.getProperty (.object b) key m = r.call getter (.object b) [] m) ∧
      ∀ (settings : Settings) (fuel : Nat) (arguments : List Value),
        ((settings.runner fuel).hasOwnProperty (.primitive p) arguments m =
            (settings.runner fuel).hasOwnProperty (.object b) arguments m ↔
          ∀ key n, (settings.runner fuel).toKey (argument arguments 0) m = .value key n →
            (n.object b).properties.contains key = true → (p.property? key).isSome = true) ∧
        ∀ q, argument arguments 0 = .primitive q →
          (settings.runner fuel).hasOwnProperty (.primitive p) arguments m =
            (settings.runner fuel).hasOwnProperty (.object b) arguments m := by
  have boxable := Primitive.isSome_prototype? notNullish
  constructor
  · intro m
    refine ⟨_, _, Eval.toObject_primitive boxable m, m.boxes_push p, ?_⟩
    rw [Machine.object_push, if_pos rfl]
  · intro m b h
    have reads (r : Runner) (key : String) :
        r.getProperty (.primitive p) key m = r.readProperty b key (.primitive p) m ∧
        r.getProperty (.object b) key m = r.readProperty b key (.object b) m :=
      ⟨h.getProperty_primitive boxable r key, rfl⟩
    refine ⟨h.property, reads, ?_, ?_, ?_⟩
    · intro r key found v first plain
      simp only [reads, Runner.readProperty_eq, first, Runner.valueFound_plain plain]
      exact ⟨rfl, rfl⟩
    · intro r key getter setter first defined
      simp only [reads, Runner.readProperty_eq, first, Runner.valueFound_getter defined, and_self]
    · intro settings fuel arguments
      exact ⟨h.hasOwnProperty_iff boxable settings fuel arguments,
        fun q key => h.hasOwnProperty_of_primitive boxable settings fuel key⟩

/-- The prototype of texts has a `toString` that gives its receiver an `x` and answers `"x"`. -/
def overridingMachine : Machine :=
  { Machine.empty with
    objects := #[.ofPrototype none, .ofPrototype none, .ofPrototype none, .ofPrototype none,
      ⟨none, .ofList [("toString", .writable (.object ⟨5⟩))], .ordinary⟩,
      ⟨some .functionPrototype, .empty, .function (.closure ⟨none, ⟨none, [], .block
        [.expression (.assign .assign (.access .this (.ident "x") false)
          (.literal ⟨.bool true, none, none⟩)),
        .ret (some (.literal ⟨.string "x", none, none⟩))], false, false, none⟩, ⟨0⟩, false⟩)⟩] }

/-- A text and its box find the `toString` of the prototype, and answer alike for the key `"0"`. -/
theorem primitive_reads_as_box_text :
    ∃ b m, Eval.toObject (.string "text") overridingMachine = .value b m ∧
      (∀ r : Runner, r.getProperty (.string "text") "toString" m = .value (.object ⟨5⟩) m ∧
        r.getProperty (.object b) "toString" m = .value (.object ⟨5⟩) m) ∧
      ∀ fuel, (Settings.standard.runner fuel).hasOwnProperty (.string "text") [.string "0"] m =
        (Settings.standard.runner fuel).hasOwnProperty (.object b) [.string "0"] m := by
  have notNullish : Primitive.isNullish (.string "text") = false := rfl
  obtain ⟨boxes, agree⟩ := primitive_reads_as_box notNullish
  obtain ⟨b, m, boxed, box, _⟩ := boxes overridingMachine
  cases boxed
  obtain ⟨_, _, plain, _, own⟩ := agree _ _ box
  refine ⟨_, _, rfl, fun r => ?_, fun fuel => ?_⟩
  · exact plain r "toString" (some (.writable (.object ⟨5⟩))) (.object ⟨5⟩) rfl rfl
  · exact (own .standard fuel [.string "0"]).2 (.string "0") rfl

/-- A box that is its own key gets an `x` while it is converted, so it has one, and its text has
none. -/
theorem hasOwnProperty_tells_apart :
    let r := Settings.standard.runner 5
    ∃ b m, Eval.toObject (.string "text") overridingMachine = .value b m ∧
      (∃ n, r.hasOwnProperty (.string "text") [.object b] m = .value (.bool false) n) ∧
      ∃ n, r.hasOwnProperty (.object b) [.object b] m = .value (.bool true) n :=
  ⟨_, _, rfl, ⟨_, rfl⟩, _, rfl⟩

end ScriptTree
