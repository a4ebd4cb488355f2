import ScriptTree.Proofs.Kinds
import ScriptTree.Proofs.Walks

/-!
# Instances of a constructor

`new` chooses a prototype before the constructor runs, and `instanceof` compares it afterwards.  In
between the constructor may run any script.  No script gives an object another prototype
(`Machine.PrototypesKept`, on every machine, ordered or not) or makes a function something else
(`Machine.KindsKept`), so the two agree as long as the constructor gives out the same prototype
(`new_instanceOf`).
-/

namespace ScriptTree

/-! ## Prototypes stay -/

namespace Discipline

/-- The prototypes of `base` are kept. -/
def inherited (base : Machine) : Discipline where
  World := { m : Machine // base.PrototypesKept m }
  machine := Subtype.val
  console w := w.val.console
  reaches _ _ _ := True
  value _ _ := True
  slot _ _ := True
  scope _ _ := True
  target _ _ := True
  builtin _ := True
  fault _ _ := True
  checks := .anything
  fits _ := True
  room _ _ _ := True
  mayEnter _ := True
  mayExhaust := True
  inStep _ := True

variable {base : Machine} {w : (inherited base).World}

theorem inherited_carefree : (inherited base).Carefree where
  value _ _ := trivial
  scope _ _ := trivial
  builtin _ := trivial
  fault _ _ := trivial
  fits _ := trivial
  room _ _ _ := trivial
  sees _ _ _ := trivial
  mayExhaust := trivial
  slot _ _ := trivial
  checks := rfl

theorem inherited_follows {fp : Footprint} (change : Machine → Machine)
    (kept : base.PrototypesKept (change w.val))
    (console : (change w.val).console = w.val.console) :
    ∃ w', (inherited base).Follows fp w w' change :=
  ⟨⟨change w.val, kept⟩, trivial, rfl, console⟩

theorem inherited_changes : (inherited base).Changes where
  refl _ _ := trivial
  trans _ _ := trivial
  widenScope _ := trivial
  widenTarget _ := trivial
  dropScope _ _ := trivial
  dropTarget _ _ := trivial
  target_mono _ _ := trivial
  allocates {w o} _ := by
    obtain ⟨w', follows⟩ := inherited_follows (fun m => { m with objects := m.objects.push o })
      (w.property.trans (.push w.val o)) rfl
    exact ⟨w', follows, fun _ _ => trivial, fun _ => trivial⟩
  defines {w o p} key _ := inherited_follows (·.modifyObject o fun object => object.define key p)
    (w.property.trans (.modify w.val o _ fun _ => rfl)) rfl
  erases {w o} key := inherited_follows (·.modifyObject o fun object => object.erase key)
    (w.property.trans (.modify w.val o _ fun _ => rfl)) rfl
  boxes {w o p} _ _ :=
    inherited_follows (·.modifyObject o fun object => { object with kind := .boxed p })
      (w.property.trans (.modify w.val o _ fun _ => rfl)) rfl
  opensScope {w _ _} := inherited_follows _ (w.property.trans (.of_objects rfl)) rfl
  declares {w _ _} _ _ := inherited_follows _ (w.property.trans (.of_objects rfl)) rfl
  assigns {w _ _ _ _} _ _ := inherited_follows _ (w.property.trans (.of_objects rfl)) rfl
  setsClock w _ := inherited_follows _ (w.property.trans (.of_objects rfl)) rfl
  enters {w} frame _ := by
    refine ⟨⟨{ w.val with stack := frame :: w.val.stack }, w.property.trans (.of_objects rfl)⟩, rfl, rfl,
      fun _ h => h, ?_⟩
    intro fp w₂ _
    exact ⟨⟨{ w₂.val with stack := w₂.val.stack.tail }, w₂.property.trans (.of_objects rfl)⟩, trivial, rfl,
      rfl, fun _ => trivial⟩

theorem inherited_lawful : (inherited base).Lawful := inherited_carefree.lawful inherited_changes

theorem inherited_agree (settings : Settings) : (inherited base).Agree settings settings :=
  inherited_lawful.agree settings (fun _ _ _ => trivial) (fun _ _ => trivial) fun w line =>
    ⟨⟨{ w.val with console := w.val.console.push line }, w.property.trans (.of_objects rfl)⟩, trivial, rfl,
      rfl⟩

end Discipline

/-- No operation gives an object that it finds another prototype. -/
theorem Operation.perform_prototypes {α : Type} (op : Operation α) (m : Machine)
    (settings : Settings) (fuel : Nat) :
    m.PrototypesKept (op.perform (settings.runner fuel) m).machine := by
  obtain ⟨w', _, ends⟩ := Discipline.inherited_lawful.perform (Discipline.inherited_agree settings)
    fuel op (w := ⟨m, .of_objects rfl⟩) (Discipline.inherited_carefree.requests fun _ _ => trivial)
  have left : (op.perform (settings.runner fuel) m).machine = w'.val := ends
  rw [left]
  exact w'.property

/-! ## Constructors stay -/

theorem Eval.value_of_bind {α β : Type} {x : Eval α} {f : α → Eval β} {m m' : Machine} {b : β}
    (h : (x >>= f) m = .value b m') : ∃ a n, x m = .value a n ∧ f a n = .value b m' := by
  cases first : x m with
  | value a n =>
      rw [bind_of_value first] at h
      exact ⟨a, n, rfl, h⟩
  | fault e n =>
      rw [bind_of_fault first] at h
      cases h
  | exhausted n =>
      rw [bind_of_exhausted first] at h
      cases h

namespace Machine

variable {m m' : Machine} {o : ObjectId}

theorem callable?_of_isConstructor {v : Value} (h : m.isConstructor v = true) :
    ∃ c, m.callable? v = some c := by
  rw [isConstructor] at h
  cases callable : m.callable? v with
  | none =>
      rw [callable] at h
      cases h
  | some c => exact ⟨c, rfl⟩

/-- What can be called is an object that the machine has. -/
theorem inside_of_callable? {c : Callable} (h : m.callable? (.object o) = some c) :
    o.index < m.objects.size := by
  by_contra outside
  have shape := (callable?_object.mp h).1
  rw [m.object_default (Nat.le_of_not_lt outside)] at shape
  cases shape

/-- A function stays the function it is, unless it is under construction itself. -/
theorem callable?_kept {target : Option ObjectId} {c : Callable}
    (h : m.callable? (.object o) = some c) (prototypes : m.PrototypesKept m')
    (kinds : m.KindsKept target m') (other : target ≠ some o) :
    m'.callable? (.object o) = some c := by
  have inside := inside_of_callable? h
  obtain ⟨shape, kind⟩ := callable?_object.mp h
  refine callable?_object.mpr ⟨?_, ?_⟩
  · rw [prototypes.prototype o inside, shape]
  · rw [kinds.kind o inside other, kind]

end Machine

namespace Runner

variable {r : Runner} {m m' : Machine}

/-- An own value is read without running any script. -/
theorem readProperty_of_own {o : ObjectId} {key : String} {v : Value} {writable : Bool}
    (own : (m.object o).own? key = some (.data v writable)) (receiver : Value) :
    r.readProperty o key receiver m = .value v m := by
  have found : Eval.property? o key m = .value (some (.data v writable)) m := by
    rw [Eval.property?, Eval.search, Machine.property_eq, own]
  exact Eval.bind_of_value found

/-- An object whose prototype is the one that a constructor gives out is an instance of it. -/
theorem isInstanceOf_of_own {c : Callable} {own o p : ObjectId} {writable : Bool}
    (callable : m.callable? (.object own) = some c)
    (gives : (m.object own).own? "prototype" = some (.data (.object p) writable))
    (inherits : (m.object o).prototype = some p) :
    r.isInstanceOf (.object o) (.object own) m = .value true m := by
  have isCallable : Eval.isCallable (.object own) m = .value true m := by
    show Outcome.value (m.callable? (.object own)).isSome m = _
    rw [callable]
    rfl
  rw [isInstanceOf, Eval.bind_of_value isCallable]
  show (r.readProperty own "prototype" (.object own) >>= _) m = _
  rw [Eval.bind_of_value (readProperty_of_own gives _)]
  show Outcome.value (decide ((m.object o).prototype = some p)) m = _
  rw [inherits, decide_eq_true rfl]

end Runner

/-! ## Construction -/

/-- The prototype that a constructor gives to new objects when this is its `prototype`. -/
def Value.asPrototype : Value → ObjectId
  | .object p => p
  | .primitive _ => .objectPrototype

/-- The machine with one more object, which has nothing but a prototype. -/
def Machine.withFresh (m : Machine) (prototype : ObjectId) : Machine :=
  { m with objects := m.objects.push (.ofPrototype (some prototype)) }

/-- The object that `new` gives when the constructor returned `result`. -/
def Value.orFresh (result : Value) (fresh : ObjectId) : ObjectId :=
  match result with
  | .object o => o
  | .primitive _ => fresh

theorem Eval.requireConstructor_value {v : Value} {own : ObjectId} {m m' : Machine}
    (h : requireConstructor v m = .value own m') :
    v = .object own ∧ m' = m ∧ m.isConstructor v = true := by
  cases v with
  | primitive p => cases h
  | object o =>
      obtain ⟨constructs, n, looked, ends⟩ := value_of_bind h
      cases looked
      split at ends
      next constructs =>
        cases ends
        exact ⟨rfl, rfl, constructs⟩
      next => cases ends

namespace Runner

variable {r : Runner}

theorem prototypeFor_eq (own : ObjectId) :
    r.prototypeFor own = (do
      let v ← r.readProperty own "prototype" (.object own)
      return v.asPrototype) := by
  rw [prototypeFor]
  congr 1
  funext v
  cases v <;> rfl

/-- What `new` does, one action after the other: it reads a prototype off the constructor, makes an
object with it, and calls the constructor. -/
theorem construct_value {c : Value} {arguments : List Value} {o : ObjectId} {m m' : Machine}
    (h : r.construct c arguments none m = .value o m') :
    ∃ own v n result, c = .object own ∧ m.isConstructor c = true ∧
      r.readProperty own "prototype" c m = .value v n ∧
      r.run (.call c (.object ⟨n.objects.size⟩) arguments (some ⟨n.objects.size⟩))
        (n.withFresh v.asPrototype) = .value result m' ∧
      o = result.orFresh ⟨n.objects.size⟩ := by
  obtain ⟨own, m₁, required, targeted⟩ := Eval.value_of_bind h
  obtain ⟨rfl, rfl, constructs⟩ := Eval.requireConstructor_value required
  obtain ⟨target, m₂, same, chosen⟩ := Eval.value_of_bind targeted
  cases same
  rw [prototypeFor_eq] at chosen
  obtain ⟨prototype, n, given, allocated⟩ := Eval.value_of_bind chosen
  obtain ⟨v, n', read, given⟩ := Eval.value_of_bind given
  cases given
  obtain ⟨fresh, m₃, made, called⟩ := Eval.value_of_bind allocated
  cases made
  obtain ⟨result, m₄, called, ends⟩ := Eval.value_of_bind called
  refine ⟨own, v, n, result, rfl, constructs, read, ?_⟩
  cases result with
  | object p =>
      cases ends
      exact ⟨called, rfl⟩
  | primitive p =>
      cases ends
      exact ⟨called, rfl⟩

section Kept

variable {settings : Settings} {fuel : Nat} {own : ObjectId} {v : Value} {m n m' : Machine}

theorem readProperty_kept
    (read : (settings.runner fuel).readProperty own "prototype" (.object own) m = .value v n) :
    m.PrototypesKept n ∧ m.KindsKept none n := by
  let op := Operation.read (.object own) "prototype"
  have left : (op.perform (settings.runner fuel) m).machine = n := congrArg Outcome.machine read
  exact ⟨left ▸ op.perform_prototypes m settings fuel, left ▸ op.perform_kinds m settings fuel⟩

theorem call_kept {callee receiver result : Value} {arguments : List Value}
    {target : Option ObjectId} (called : (settings.runner fuel).run
      (.call callee receiver arguments target) m = .value result m') :
    m.PrototypesKept m' ∧ m.KindsKept target m' := by
  let op := Operation.call callee receiver arguments target
  have left : (op.perform (settings.runner fuel) m).machine = m' := congrArg Outcome.machine called
  exact ⟨left ▸ op.perform_prototypes m settings fuel, left ▸ op.perform_kinds m settings fuel⟩

/-- A constructor is the same function after an object was made and handed to it. -/
theorem callable?_constructed {callable : Callable} {prototype : ObjectId} {result : Value}
    {arguments : List Value} (hc : m.callable? (.object own) = some callable)
    (read : (settings.runner fuel).readProperty own "prototype" (.object own) m = .value v n)
    (called : (settings.runner fuel).run
      (.call (.object own) (.object ⟨n.objects.size⟩) arguments (some ⟨n.objects.size⟩))
      (n.withFresh prototype) = .value result m') :
    m'.callable? (.object own) = some callable := by
  obtain ⟨prototypes, kinds⟩ := readProperty_kept read
  obtain ⟨prototypes', kinds'⟩ := call_kept called
  have atRead := Machine.callable?_kept hc prototypes kinds (by simp)
  have fresh : n.KindsKept none (n.withFresh prototype) :=
    Machine.KindsKept.refl.push (.ofPrototype _)
  have atCall :=
    Machine.callable?_kept atRead (Machine.PrototypesKept.push n _) fresh (by simp)
  -- it is older than the object under construction
  have other : some (⟨n.objects.size⟩ : ObjectId) ≠ some own := by
    intro same
    have older := Machine.inside_of_callable? atRead
    rw [← Option.some.inj same] at older
    exact Nat.lt_irrefl _ older
  exact Machine.callable?_kept atCall prototypes' kinds' other

end Kept

end Runner

/-- `new` gives what the constructor returned if that is an object.  Otherwise it gives an object
that was made during the call, whose prototype was read off the constructor before it ran.  That
object is an instance of the constructor, whatever the constructor did, if the prototype is an own
value of the constructor before and after. -/
theorem new_instanceOf {settings : Settings} {fuel : Nat} {c : Value} {arguments : List Value}
    {o : ObjectId} {m m' : Machine}
    (made : (settings.runner fuel).construct c arguments none m = .value o m') :
    ∃ own v n result, c = .object own ∧
      (settings.runner fuel).readProperty own "prototype" c m = .value v n ∧
      (settings.runner fuel).run
        (.call c (.object ⟨n.objects.size⟩) arguments (some ⟨n.objects.size⟩))
        (n.withFresh v.asPrototype) = .value result m' ∧
      (result = .object o ∨
        (∃ p, result = .primitive p) ∧ m.objects.size ≤ o.index ∧ o.index < m'.objects.size ∧
        (m'.object o).prototype = some v.asPrototype ∧
        ∀ p writable writable',
          (m.object own).own? "prototype" = some (.data (.object p) writable) →
          (m'.object own).own? "prototype" = some (.data (.object p) writable') →
          ∀ r : Runner, r.isInstanceOf (.object o) c m' = .value true m') := by
  obtain ⟨own, v, n, result, rfl, constructs, read, called, rfl⟩ := Runner.construct_value made
  refine ⟨own, v, n, result, rfl, read, called, ?_⟩
  cases result with
  | object p => exact .inl rfl
  | primitive p =>
      have grown := (Runner.readProperty_kept read).1.objects
      have kept := (Runner.call_kept called).1
      have fresh : n.objects.size < (n.withFresh v.asPrototype).objects.size := by
        simp [Machine.withFresh]
      have inherits : (m'.object ⟨n.objects.size⟩).prototype = some v.asPrototype := by
        rw [kept.prototype ⟨n.objects.size⟩ fresh, Machine.withFresh, Machine.object_push,
          if_pos rfl]
        rfl
      refine .inr ⟨⟨p, rfl⟩, grown, fresh.trans_le kept.objects, inherits, ?_⟩
      intro p writable writable' before after r
      obtain ⟨callable, hc⟩ := Machine.callable?_of_isConstructor constructs
      -- the prototype was read off the own value, so the new object has it
      have given := Runner.readProperty_of_own (r := settings.runner fuel) before (.object own)
      have same : v = .object p := by
        rw [read] at given
        cases given
        rfl
      rw [same] at inherits
      exact Runner.isInstanceOf_of_own (Runner.callable?_constructed hc read called) after inherits

/-- A machine on which `F` writes to the object under construction, to its own prototype and to the
`prototype` of another function:
`function F() { this.x = null; F.prototype.x = null; G.prototype = this; }`. -/
def meddlingMachine : Machine :=
  { Machine.empty with
    objects := #[.ofPrototype none, .ofPrototype none, .ofPrototype none,
      .ofPrototype (some .objectPrototype), constructor [this "x", own "x", other], constructor []]
    scopes := #[⟨none, .undefined,
      .ofList [("F", ⟨.object ⟨4⟩, true⟩), ("G", ⟨.object ⟨5⟩, true⟩)]⟩] }
where
  constructor (body : List Stmt) : Object :=
    ⟨some .functionPrototype, .ofList [("prototype", .writable (.object ⟨3⟩))],
      .function (.closure ⟨none, ⟨none, [], .block body, false, false, none⟩, ⟨0⟩, false⟩)⟩
  write (object : Expr) (key : String) (value : Expr) : Stmt :=
    .expression (.assign .assign (.access object (.ident key) false) value)
  null : Expr := .literal ⟨.null, none, none⟩
  this (key : String) : Stmt := write .this key null
  own (key : String) : Stmt := write (.access (.ident "F") (.ident "prototype") false) key null
  other : Stmt := write (.ident "G") "prototype" .this

/-- `new F() instanceof F`, although `F` meddled with the prototypes. -/
theorem new_instanceOf_meddling :
    ∃ o m', (Settings.standard.runner 6).construct (.object ⟨4⟩) [] none meddlingMachine =
        .value o m' ∧
      (m'.object ⟨5⟩).own? "prototype" = some (.writable (.object o)) ∧
      (m'.object o).prototype = some ⟨3⟩ ∧
      (Settings.standard.runner 6).isInstanceOf (.object o) (.object ⟨4⟩) m' = .value true m' := by
  obtain ⟨o, m', made, meddled, before, after⟩ : ∃ o m',
      (Settings.standard.runner 6).construct (.object ⟨4⟩) [] none meddlingMachine =
        .value o m' ∧
      (m'.object ⟨5⟩).own? "prototype" = some (.writable (.object o)) ∧
      (meddlingMachine.object ⟨4⟩).own? "prototype" = some (.writable (.object ⟨3⟩)) ∧
      (m'.object ⟨4⟩).own? "prototype" = some (.writable (.object ⟨3⟩)) :=
    ⟨_, _, rfl, rfl, rfl, rfl⟩
  obtain ⟨own, v, n, result, same, read, called, outcome⟩ := new_instanceOf made
  cases same
  -- `F` returned nothing, so the object is the new one
  have started : (Settings.standard.runner 6).readProperty ⟨4⟩ "prototype" (.object ⟨4⟩)
      meddlingMachine = .value (.object ⟨3⟩) meddlingMachine := rfl
  rw [started] at read
  cases read
  obtain ⟨m'', ended⟩ : ∃ m'', (Settings.standard.runner 6).run
      (.call (.object ⟨4⟩) (.object ⟨6⟩) [] (some ⟨6⟩)) (meddlingMachine.withFresh ⟨3⟩) =
        .value .undefined m'' := ⟨_, rfl⟩
  rcases outcome with returned | ⟨_, _, _, inherits, instances⟩
  · rw [returned] at called
    cases called.symm.trans ended
  · exact ⟨o, m', made, meddled, inherits, instances ⟨3⟩ true true before after _⟩

end ScriptTree
