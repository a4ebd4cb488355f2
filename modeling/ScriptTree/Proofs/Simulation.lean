import ScriptTree.Proofs.Discipline
import ScriptTree.Proofs.Likeness
import ScriptTree.Proofs.Stores

/-!
# Evaluations in lockstep

Two actions are compared that run on machines with the same contents, but for the code of
functions: the code of the first machine is like that of the second.  The actions end alike
(`Slack.Ends`) when they end in the same way, on machines that are alike again.  A `Slack` says when
they need not: after some faults of the first action, and when one of the two runs out of fuel.

There is one rule for each way to compose actions and one for each action that needs no runner.
-/

namespace ScriptTree

/-! ## Machines -/

/-- The same function but for its code. -/
def Callable.Like (V : Veil) : Callable → Callable → Prop
  | .closure c, f => ∃ code, f = .closure { c with code := code } ∧ c.code.Like V code
  | .builtin b, f => f = .builtin b
  | .host h, f => f = .host h

def ObjectKind.Like (V : Veil) : ObjectKind → ObjectKind → Prop
  | .function c, k => ∃ c', k = .function c' ∧ c.Like V c'
  | .ordinary, k => k = .ordinary
  | .boxed p, k => k = .boxed p
  | .host table, k => k = .host table

/-- The same object but for the code of a function. -/
structure Object.Like (V : Veil) (o o' : Object) : Prop where
  prototype : o.prototype = o'.prototype
  properties : o.properties = o'.properties
  kind : o.kind.Like V o'.kind

/-- The same machine but for the code of functions. -/
structure Machine.Alike (V : Veil) (m m' : Machine) : Prop where
  size : m.objects.size = m'.objects.size
  object : ∀ o, (m.object o).Like V (m'.object o)
  scopes : m.scopes = m'.scopes
  stack : m.stack = m'.stack
  console : m.console = m'.console
  clock : m.clock = m'.clock

section Machines

variable {V : Veil}

namespace FunctionCode.Like

variable {f f' : FunctionCode}

theorem name (h : f.Like V f') : f.name = f'.name := by
  obtain ⟨_, _, _, _, _, _⟩ := f
  obtain ⟨_, _, rfl, _⟩ := h
  rfl

theorem generator (h : f.Like V f') : f.generator = f'.generator := by
  obtain ⟨_, _, _, _, _, _⟩ := f
  obtain ⟨_, _, rfl, _⟩ := h
  rfl

theorem isAsync (h : f.Like V f') : f.isAsync = f'.isAsync := by
  obtain ⟨_, _, _, _, _, _⟩ := f
  obtain ⟨_, _, rfl, _⟩ := h
  rfl

theorem span (h : f.Like V f') : f.span = f'.span := by
  obtain ⟨_, _, _, _, _, _⟩ := f
  obtain ⟨_, _, rfl, _⟩ := h
  rfl

theorem params (h : f.Like V f') : likeParams V f.params f'.params := by
  obtain ⟨_, _, _, _, _, _⟩ := f
  obtain ⟨_, _, rfl, h, _⟩ := h
  exact h

theorem body (h : f.Like V f') : f.body.Like V f'.body := by
  obtain ⟨_, _, _, _, _, _⟩ := f
  obtain ⟨_, _, rfl, _, h⟩ := h
  exact h

end FunctionCode.Like

namespace Callable.Like

theorem name? : ∀ {c c' : Callable}, c.Like V c' → c.name? = c'.name?
  | .closure _, _, ⟨_, rfl, _⟩ => rfl
  | .builtin _, _, rfl | .host _, _, rfl => rfl

theorem isConstructor : ∀ {c c' : Callable}, c.Like V c' → c.isConstructor = c'.isConstructor
  | .closure _, _, ⟨_, rfl, _⟩ => rfl
  | .builtin _, _, rfl | .host _, _, rfl => rfl

theorem position? : ∀ {c c' : Callable}, c.Like V c' → c.position? = c'.position?
  | .closure _, _, ⟨_, rfl, h⟩ => congrArg (Option.map Span.start) h.span
  | .builtin _, _, rfl | .host _, _, rfl => rfl

end Callable.Like

namespace ObjectKind.Like

theorem property? (key : String) :
    ∀ {k k' : ObjectKind}, k.Like V k' → k.property? key = k'.property? key
  | .function _, _, ⟨_, rfl, _⟩ => rfl
  | .ordinary, _, rfl | .boxed _, _, rfl | .host _, _, rfl => rfl

theorem refl {k : ObjectKind} (h : ∀ c, k = .function c → c.Like V c) : k.Like V k := by
  cases k with
  | function c => exact ⟨c, rfl, h c rfl⟩
  | ordinary | boxed | host => rfl

end ObjectKind.Like

namespace Object.Like

variable {o o' : Object}

/-- An object is like itself when its code is, if it has any. -/
theorem refl (h : ∀ c, o.kind = .function c → c.Like V c) : o.Like V o := ⟨rfl, rfl, .refl h⟩

theorem own? (h : o.Like V o') (key : String) : o.own? key = o'.own? key := by
  rw [Object.own?, Object.own?, h.kind.property? key, h.properties]

theorem callable? (h : o.Like V o') : Option.Rel (Callable.Like V) o.callable? o'.callable? := by
  obtain ⟨prototype, properties, kind⟩ := o
  obtain ⟨prototype', properties', kind'⟩ := o'
  have hk := h.kind
  cases kind with
  | function c =>
      obtain ⟨c', rfl, hc⟩ := hk
      exact .some hc
  | ordinary | boxed | host =>
      obtain rfl := hk
      exact .none

theorem define (h : o.Like V o') (key : String) (property : Property) :
    (o.define key property).Like V (o'.define key property) :=
  ⟨h.prototype, congrArg (Table.insert · key property) h.properties, h.kind⟩

theorem erase (h : o.Like V o') (key : String) : (o.erase key).Like V (o'.erase key) :=
  ⟨h.prototype, congrArg (Table.erase · key) h.properties, h.kind⟩

end Object.Like

namespace Machine.Alike

variable {m m' : Machine}

/-- A machine is like itself when the code of its functions is. -/
theorem refl (h : m.Functions fun c => c.Like V c) : m.Alike V m :=
  ⟨rfl, fun o => .refl (h o), rfl, rfl, rfl, rfl⟩

theorem property (h : m.Alike V m') (o : ObjectId) (key : String) :
    m.property o key = m'.property o key := by
  have within (bound : Nat) (o : ObjectId) :
      m.propertyWithin key bound o = m'.propertyWithin key bound o := by
    induction bound generalizing o with
    | zero => rfl
    | succ bound ih =>
        rw [propertyWithin, propertyWithin, (h.object o).own?, (h.object o).prototype]
        simp only [ih]
  rw [Machine.property, Machine.property, h.size, within]

theorem nearest (h : m.Alike V m') (s : ScopeId) (name : String) :
    m.nearest s name = m'.nearest s name :=
  nearest_congr h.scopes s name

theorem isFunction (h : m.Alike V m') (o : ObjectId) : m.isFunction o = m'.isFunction o := by
  rw [Machine.isFunction, Machine.isFunction, (h.object o).prototype]

theorem callable? (h : m.Alike V m') (v : Value) :
    Option.Rel (Callable.Like V) (m.callable? v) (m'.callable? v) := by
  cases v with
  | primitive p => exact .none
  | object o =>
      rw [Machine.callable?, Machine.callable?, h.isFunction]
      split
      · exact (h.object o).callable?
      · exact .none

theorem isCallable (h : m.Alike V m') (v : Value) : m.isCallable v = m'.isCallable v := by
  rw [Machine.isCallable, Machine.isCallable]
  have rel := h.callable? v
  generalize m.callable? v = c, m'.callable? v = c' at rel
  cases rel with
  | some _ | none => rfl

theorem isConstructor (h : m.Alike V m') (v : Value) :
    m.isConstructor v = m'.isConstructor v := by
  rw [Machine.isConstructor, Machine.isConstructor]
  have rel := h.callable? v
  generalize m.callable? v = c, m'.callable? v = c' at rel
  cases rel with
  | some hc => exact hc.isConstructor
  | none => rfl

theorem describe (h : m.Alike V m') (v : Value) : m.describe v = m'.describe v := by
  cases v with
  | primitive p => cases p <;> rfl
  | object o =>
      rw [Machine.describe, Machine.describe]
      have hk := (h.object o).kind
      cases kind : (m.object o).kind with
      | function c =>
          rw [kind] at hk
          obtain ⟨c', hc', hc⟩ := hk
          simp only [hc', hc.name?]
      | ordinary | boxed | host =>
          rw [kind] at hk
          rw [show (m'.object o).kind = _ from hk]

theorem typeOf (h : m.Alike V m') (v : Value) : m.typeOf v = m'.typeOf v := by
  cases v with
  | primitive p => cases p <;> rfl
  | object o => rw [Machine.typeOf, Machine.typeOf, h.isFunction]

theorem push (h : m.Alike V m') {o o' : Object} (ho : o.Like V o') :
    Machine.Alike V { m with objects := m.objects.push o }
      { m' with objects := m'.objects.push o' } := by
  refine ⟨by simp [h.size], fun i => ?_, h.scopes, h.stack, h.console, h.clock⟩
  rw [object_push, object_push, h.size]
  split
  · exact ho
  · exact h.object i

theorem modifyObject (h : m.Alike V m') (o : ObjectId) {f : Object → Object}
    (hf : ∀ {x x' : Object}, x.Like V x' → (f x).Like V (f x')) :
    (m.modifyObject o f).Alike V (m'.modifyObject o f) := by
  refine ⟨by simp [Machine.modifyObject, h.size], fun i => ?_, h.scopes, h.stack, h.console,
    h.clock⟩
  rw [object_modify, object_modify, h.size]
  split
  · exact hf (h.object o)
  · exact h.object i

/-- A machine whose functions have no finalizers is like itself. -/
theorem of_finalizerFree (closures : ∀ o c, (m.object o).kind = .function (.closure c) →
    c.code.all .finalizerFree = true) : m.Alike V m := by
  refine .refl fun o c hc => ?_
  cases c with
  | closure c => exact ⟨c.code, rfl, .strict (.refl trivial c.code) (closures o c hc)⟩
  | builtin | host => rfl

/-- All but the objects of two machines that are alike is the same. -/
theorem eq_but_objects (h : m.Alike V m') : m' = { m with objects := m'.objects } := by
  obtain ⟨_, _, _, _, _⟩ := m
  obtain ⟨_, _, _, _, _⟩ := m'
  obtain ⟨_, _, rfl, rfl, rfl, rfl⟩ := h
  rfl

end Machine.Alike

end Machines

/-! ## Ends -/

/-- How much the ends of two evaluations may differ. -/
structure Slack extends Veil where
  /-- The faults of the first evaluation after which nothing is said about the second one. -/
  escapes : Fault → Prop
  /-- Whether the first evaluation may run out of fuel alone. -/
  tires : Prop
  /-- Whether the second evaluation may run out of fuel alone. -/
  lags : Prop
  uncaught : ∀ f, escapes f → f.isCatchable = false
  hidden : hides → ∀ message trace, escapes (.internal message trace)

namespace Slack

variable {L : Slack} {α β γ δ : Type} {R : α → β → Prop} {S : γ → δ → Prop}

/-- Two evaluations end alike, with values as `R` says. -/
inductive Ends (L : Slack) (R : α → β → Prop) : Outcome α → Outcome β → Prop
  | value {a : α} {b : β} {m m' : Machine} (h : R a b) (alike : m.Alike L.toVeil m') :
      L.Ends R (.value a m) (.value b m')
  | fault {f : Fault} {m m' : Machine} (alike : m.Alike L.toVeil m') :
      L.Ends R (.fault f m) (.fault f m')
  | exhausted {m m' : Machine} (alike : m.Alike L.toVeil m') :
      L.Ends R (.exhausted m) (.exhausted m')
  | escaped {f : Fault} {m : Machine} {o : Outcome β} (h : L.escapes f) : L.Ends R (.fault f m) o
  | tired {m : Machine} {o : Outcome β} (h : L.tires) : L.Ends R (.exhausted m) o
  | lagging {o : Outcome α} {m : Machine} (h : L.lags) : L.Ends R o (.exhausted m)

/-- Two actions end alike on machines that are alike. -/
def Sim (L : Slack) (R : α → β → Prop) (x : Eval α) (y : Eval β) : Prop :=
  ∀ m m' : Machine, m.Alike L.toVeil m' → L.Ends R (x m) (y m')

/-- Two actions end alike, with the same values. -/
abbrev Same (L : Slack) (x y : Eval α) : Prop := L.Sim Eq x y

/-- An action after which nothing is said about the other one. -/
def Stops (L : Slack) (x : Eval α) : Prop :=
  ∀ m, (∃ f m', L.escapes f ∧ x m = .fault f m') ∨ L.tires ∧ ∃ m', x m = .exhausted m'

/-! ## Composition -/

namespace Stops

theorem sim {x : Eval α} (h : L.Stops x) (y : Eval β) : L.Sim R x y := by
  intro m m' _
  rcases h m with ⟨f, n, hf, hx⟩ | ⟨tires, n, hx⟩
  · rw [hx]
    exact .escaped hf
  · rw [hx]
    exact .tired tires

theorem bind {x : Eval α} (h : L.Stops x) (f : α → Eval β) : L.Stops (x >>= f) := by
  intro m
  rcases h m with ⟨f, n, hf, hx⟩ | ⟨tires, n, hx⟩
  · exact .inl ⟨f, n, hf, Eval.bind_of_fault hx⟩
  · exact .inr ⟨tires, n, Eval.bind_of_exhausted hx⟩

theorem internalFault (h : L.hides) (message : String) :
    L.Stops (Eval.internalFault (α := α) message) :=
  fun m => .inl ⟨_, m, L.hidden h message m.stack, rfl⟩

theorem unsupported (h : L.hides) (what : String) : L.Stops (Eval.unsupported (α := α) what) :=
  internalFault h _

end Stops

namespace Sim

theorem pure {a : α} {b : β} (h : R a b) : L.Sim R (pure a) (pure b) :=
  fun _ _ alike => .value h alike

theorem bind {x : Eval α} {y : Eval β} {f : α → Eval γ} {g : β → Eval δ} (h : L.Sim R x y)
    (next : ∀ a b, R a b → L.Sim S (f a) (g b)) : L.Sim S (x >>= f) (y >>= g) := by
  intro m m' alike
  have ends := h m m' alike
  show L.Ends S (Eval.bind x f m) (Eval.bind y g m')
  rw [Eval.bind, Eval.bind]
  generalize x m = o, y m' = o' at ends
  cases ends with
  | value hab alike => exact next _ _ hab _ _ alike
  | fault alike => exact .fault alike
  | exhausted alike => exact .exhausted alike
  | escaped hf => exact .escaped hf
  | tired tires => exact .tired tires
  | lagging lags => exact .lagging lags

/-- Two actions with the same value, and what follows it. -/
theorem andThen {x y : Eval α} {f : α → Eval γ} {g : α → Eval δ} (h : L.Same x y)
    (next : ∀ a, L.Sim S (f a) (g a)) : L.Sim S (x >>= f) (y >>= g) :=
  h.bind fun a _ hab => hab ▸ next a

theorem fail (f : Fault) : L.Sim R (Eval.fail f) (Eval.fail f) := fun _ _ alike => .fault alike

theorem exhausted : L.Sim R Eval.exhausted Eval.exhausted := fun _ _ alike => .exhausted alike

theorem ite {c : Prop} [Decidable c] {x x' : Eval α} {y y' : Eval β} (h : c → L.Sim R x y)
    (h' : ¬c → L.Sim R x' y') : L.Sim R (if c then x else x') (if c then y else y') := by
  split
  next hc => exact h hc
  next hc => exact h' hc

theorem inspect {f : Machine → α} {g : Machine → β}
    (h : ∀ {m m' : Machine}, m.Alike L.toVeil m' → R (f m) (g m')) :
    L.Sim R (Eval.inspect f) (Eval.inspect g) :=
  fun _ _ alike => .value (h alike) alike

theorem search {f g : Machine → Search α}
    (h : ∀ {m m' : Machine}, m.Alike L.toVeil m' → f m = g m') :
    L.Same (Eval.search f) (Eval.search g) := by
  intro m m' alike
  rw [Eval.search, Eval.search, h alike]
  cases g m' with
  | found _ | absent => exact .value rfl alike
  | endless => exact .exhausted alike

/-! ## Looking -/

theorem object (o : ObjectId) : L.Sim (Object.Like L.toVeil) (Eval.object o) (Eval.object o) :=
  inspect fun alike => alike.object o

theorem property? (o : ObjectId) (key : String) :
    L.Same (Eval.property? o key) (Eval.property? o key) :=
  search fun alike => alike.property o key

theorem describe (v : Value) : L.Same (Eval.describe v) (Eval.describe v) :=
  inspect fun alike => alike.describe v

theorem isCallable (v : Value) : L.Same (Eval.isCallable v) (Eval.isCallable v) :=
  inspect fun alike => alike.isCallable v

theorem receiver (s : ScopeId) : L.Same (Eval.receiver s) (Eval.receiver s) :=
  inspect fun alike => by rw [Machine.scope, Machine.scope, alike.scopes]

theorem nearest? (s : ScopeId) (name : String) :
    L.Same (Eval.nearest? s name) (Eval.nearest? s name) :=
  search fun alike => alike.nearest s name

theorem isBound (s : ScopeId) (name : String) :
    L.Same (Eval.isBound s name) (Eval.isBound s name) :=
  (nearest? s name).andThen fun _ => pure rfl

theorem lookup (s : ScopeId) (name : String) :
    L.Same (Eval.lookup s name) (Eval.lookup s name) := by
  refine (nearest? s name).andThen fun found => ?_
  cases found with
  | none | some => exact pure rfl

theorem trace : L.Same Eval.trace Eval.trace := inspect fun alike => alike.stack

/-! ## Changing -/

theorem allocate {o o' : Object} (h : o.Like L.toVeil o') :
    L.Same (Eval.allocate o) (Eval.allocate o') :=
  fun _ _ alike => .value (congrArg ObjectId.mk alike.size) (alike.push h)

theorem define (o : ObjectId) (key : String) (p : Property) :
    L.Same (Eval.define o key p) (Eval.define o key p) :=
  fun _ _ alike => .value rfl (alike.modifyObject o fun h => h.define key p)

theorem erase (o : ObjectId) (key : String) : L.Same (Eval.erase o key) (Eval.erase o key) :=
  fun _ _ alike => .value rfl (alike.modifyObject o fun h => h.erase key)

theorem box (o : ObjectId) (p : Primitive) : L.Same (Eval.box o p) (Eval.box o p) :=
  fun _ _ alike => .value rfl (alike.modifyObject o fun h => ⟨h.prototype, h.properties, rfl⟩)

theorem openScope (parent : Option ScopeId) (receiver : Value) :
    L.Same (Eval.openScope parent receiver) (Eval.openScope parent receiver) := by
  intro m m' alike
  rw [alike.eq_but_objects]
  exact .value rfl ⟨alike.size, alike.object, rfl, rfl, rfl, rfl⟩

theorem childScope (s : ScopeId) : L.Same (Eval.childScope s) (Eval.childScope s) :=
  (receiver s).andThen fun _ => openScope _ _

theorem declare (s : ScopeId) (name : String) (value : Value) (isMutable : Bool) :
    L.Same (Eval.declare s name value isMutable) (Eval.declare s name value isMutable) := by
  intro m m' alike
  rw [alike.eq_but_objects]
  exact .value rfl ⟨alike.size, alike.object, rfl, rfl, rfl, rfl⟩

theorem declareIfAbsent (s : ScopeId) (name : String) :
    L.Same (Eval.declareIfAbsent s name) (Eval.declareIfAbsent s name) := by
  intro m m' alike
  have scopes : m'.scope s = m.scope s := by rw [Machine.scope, Machine.scope, alike.scopes]
  rw [Eval.declareIfAbsent, Eval.declareIfAbsent, scopes]
  split
  · exact .value rfl alike
  · exact declare s name .undefined true m m' alike

theorem writeBinding (strict : Bool) (s : ScopeId) (name : String) (value : Value) :
    L.Same (Eval.writeBinding strict s name value) (Eval.writeBinding strict s name value) := by
  refine (nearest? s name).andThen fun found => ?_
  match found with
  | none => exact fail _
  | some (owner, binding) =>
      refine ite (fun _ => declare owner name value true) fun _ => ?_
      exact ite (fun _ => fail _) fun _ => pure rfl

theorem assign (s : ScopeId) (name : String) (value : Value) :
    L.Same (Eval.assign s name value) (Eval.assign s name value) :=
  writeBinding true s name value

theorem assignVar (s : ScopeId) (name : String) (value : Value) :
    L.Same (Eval.assignVar s name value) (Eval.assignVar s name value) :=
  writeBinding false s name value

theorem withFrame (frame : Frame) {x y : Eval α} (h : L.Same x y) :
    L.Same (Eval.withFrame frame x) (Eval.withFrame frame y) := by
  intro m m' alike
  have inside : Machine.Alike L.toVeil { m with stack := frame :: m.stack }
      { m' with stack := frame :: m'.stack } :=
    ⟨alike.size, alike.object, alike.scopes, congrArg (frame :: ·) alike.stack, alike.console,
      alike.clock⟩
  have outside {n n' : Machine} (alike : n.Alike L.toVeil n') :
      Machine.Alike L.toVeil { n with stack := n.stack.tail } { n' with stack := n'.stack.tail } :=
    ⟨alike.size, alike.object, alike.scopes, congrArg List.tail alike.stack, alike.console,
      alike.clock⟩
  -- The frame is dropped at every end, so each of them is one on machines that are alike again.
  have ends := h _ _ inside
  rw [Eval.withFrame, Eval.withFrame]
  generalize x { m with stack := frame :: m.stack } = o,
    y { m' with stack := frame :: m'.stack } = o' at ends
  cases ends with
  | value hab alike => exact .value hab (outside alike)
  | fault alike => exact .fault (outside alike)
  | exhausted alike => exact .exhausted (outside alike)
  | escaped hf => exact .escaped hf
  | tired tires => exact .tired tires
  | lagging lags => exact .lagging lags

theorem checkDepth (settings : Settings) :
    L.Same (Eval.checkDepth settings) (Eval.checkDepth settings) := by
  intro m m' alike
  rw [Eval.checkDepth, Eval.checkDepth, alike.stack]
  split
  · exact .fault alike
  · exact .value rfl alike

theorem print (settings : Settings) (level : Level) (text : String) :
    L.Same (Eval.print settings level text) (Eval.print settings level text) := by
  intro m m' alike
  rw [Eval.print, Eval.print]
  cases settings.console with
  | discard => exact .value rfl alike
  | record =>
      refine .value rfl ⟨alike.size, alike.object, alike.scopes, alike.stack, ?_, alike.clock⟩
      exact congrArg (Array.push · ⟨level, text⟩) alike.console

theorem startClock : L.Same Eval.startClock Eval.startClock := by
  intro m m' alike
  simp only [Eval.startClock, alike.stack, alike.clock]
  split
  · exact .value rfl ⟨alike.size, alike.object, alike.scopes, rfl, alike.console, rfl⟩
  · exact .value rfl alike

theorem checkTimeout (settings : Settings) :
    L.Same (Eval.checkTimeout settings) (Eval.checkTimeout settings) := by
  intro m m' alike
  have read (clock : Clock) : Machine.Alike L.toVeil { m with clock } { m' with clock } :=
    ⟨alike.size, alike.object, alike.scopes, alike.stack, alike.console, rfl⟩
  simp only [Eval.checkTimeout, alike.clock]
  split
  · split
    · exact .value rfl alike
    · split
      · exact .fault (read _)
      · exact .value rfl (read _)
  · exact .value rfl alike

/-! ## Faults with a trace -/

theorem internalFault (message : String) :
    L.Sim R (Eval.internalFault message) (Eval.internalFault message) :=
  trace.andThen fun _ => fail _

theorem unsupported (what : String) : L.Sim R (Eval.unsupported what) (Eval.unsupported what) :=
  internalFault _

theorem throwValue (v : Value) : L.Sim R (Eval.throwValue v) (Eval.throwValue v) :=
  (describe v).andThen fun _ => trace.andThen fun _ => fail _

/-! ## Making objects -/

/-- Puts the same object, which is no function, on both heaps. -/
theorem allocate_plain {o : Object} (h : ∀ c, o.kind ≠ .function c) :
    L.Same (Eval.allocate o) (Eval.allocate o) :=
  allocate (.refl fun c hc => absurd hc (h c))

theorem createFrom (prototype : ObjectId) :
    L.Same (Eval.createFrom prototype) (Eval.createFrom prototype) :=
  allocate_plain (by simp [Object.ofPrototype])

theorem createObject : L.Same Eval.createObject Eval.createObject := createFrom _

theorem createIndexed (prototype : ObjectId) (values : List Value) :
    L.Same (Eval.createIndexed prototype values) (Eval.createIndexed prototype values) :=
  allocate_plain (by simp [Object.ofPrototype])

theorem createArray (values : List Value) :
    L.Same (Eval.createArray values) (Eval.createArray values) :=
  createIndexed _ values

theorem createFunction {c c' : Callable} (h : c.Like L.toVeil c') :
    L.Same (Eval.createFunction c) (Eval.createFunction c') := by
  refine allocate ⟨rfl, ?_, c', rfl, h⟩
  simp only [h.name?]

theorem joinPrototype (function prototype : ObjectId) :
    L.Same (Eval.joinPrototype function prototype) (Eval.joinPrototype function prototype) :=
  (define _ _ _).andThen fun _ => define _ _ _

theorem createConstructor {c c' : Callable} (h : c.Like L.toVeil c') :
    L.Same (Eval.createConstructor c) (Eval.createConstructor c') := by
  refine (createFunction h).andThen fun function => createObject.andThen fun prototype => ?_
  exact (joinPrototype function prototype).andThen fun _ => pure rfl

theorem toObject (v : Value) : L.Same (Eval.toObject v) (Eval.toObject v) := by
  match v with
  | .object o => exact pure rfl
  | .primitive .undefined | .primitive .null => exact fail _
  | .primitive (.bool _) | .primitive (.number _) | .primitive (.string _) =>
      exact allocate_plain (by simp)

theorem createError (kind : ErrorKind) (message : String) :
    L.Same (Eval.createError kind message) (Eval.createError kind message) :=
  trace.andThen fun _ => allocate_plain (by simp [Object.ofPrototype])

theorem faultValue (f : Fault) : L.Same (Eval.faultValue f) (Eval.faultValue f) := by
  cases f with
  | typeError | referenceError | rangeError => exact (createError _ _).andThen fun _ => pure rfl
  | thrown | internal | timeout | invalidTree => exact pure rfl

theorem instantiate (s : ScopeId) {code code' : FunctionCode} (h : code.Like L.toVeil code')
    (isArrow : Bool) (name : Option String) :
    L.Same (Eval.instantiate s code isArrow name) (Eval.instantiate s code' isArrow name) := by
  rw [Eval.instantiate, Eval.instantiate, h.generator, h.isAsync, h.name]
  have closure : (Callable.closure ⟨name.or code'.name, code, s, isArrow⟩).Like L.toVeil
      (.closure ⟨name.or code'.name, code', s, isArrow⟩) := ⟨code', rfl, h⟩
  refine ite (fun _ => unsupported _) fun _ => ite (fun _ => unsupported _) fun _ => ?_
  exact ite (fun _ => (createFunction closure).andThen fun _ => pure rfl)
    fun _ => (createConstructor closure).andThen fun _ => pure rfl

theorem functionExpression (s : ScopeId) {code code' : FunctionCode}
    (h : code.Like L.toVeil code') :
    L.Same (Eval.functionExpression s code) (Eval.functionExpression s code') := by
  rw [Eval.functionExpression, Eval.functionExpression, h.name]
  cases code'.name with
  | none => exact instantiate s h false none
  | some name =>
      refine (childScope s).andThen fun inner => (instantiate inner h false none).andThen ?_
      exact fun _ => (declare _ _ _ _).andThen fun _ => pure rfl

/-! ## Hoisting -/

theorem declareAll (s : ScopeId) (names : List String) :
    L.Same (Eval.declareAll s names) (Eval.declareAll s names) := by
  induction names with
  | nil => exact pure rfl
  | cons name rest ih => exact (declareIfAbsent s name).andThen fun _ => ih

theorem hoist (s : ScopeId) {body body' : List Stmt} (h : likeStmts L.toVeil body body') :
    L.Same (Eval.hoist s body) (Eval.hoist s body') := by
  rw [Eval.hoist, Eval.hoist, likeStmts_hoisted h]
  exact declareAll s _

end Sim

end Slack

end ScriptTree
