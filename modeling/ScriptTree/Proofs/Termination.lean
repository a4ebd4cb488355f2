import Mathlib.Data.Finset.Lattice.Fold
import Mathlib.Tactic.IntervalCases
import ScriptTree.Proofs.Fuel
import ScriptTree.Proofs.Origin
import ScriptTree.Proofs.References

/-!
# Programs without loops end

Recursion of a script is not bounded by its tree: a function can call itself, and so can a getter, a
setter or a conversion.  What bounds it is the limit on active calls.  The measure has two parts,
the calls that may still become active and the size of the tree at hand.  A call spends one of the
first and may take up a tree of any size that the machine or the program has; everything else goes
to a smaller tree.  With `size` for the largest tree, fuel `calls * (size + 1) + n + 1` is enough
for a tree of size `n`.

Fuel that is enough gives the answer that all larger fuel gives (`evalProgram_mono`), so the program
has one outcome.
-/

namespace ScriptTree

/-! ## More fuel -/

/-- An evaluation that ends with some fuel ends in the same way with more. -/
theorem evalProgram_mono (settings : Settings) {fuel fuel' : Nat} (hf : fuel ≤ fuel')
    {s : ScopeId} {program : Program} {m : Machine}
    (ends : ∀ m', (settings.runner fuel).evalProgram s program m ≠ .exhausted m') :
    (settings.runner fuel').evalProgram s program m =
      (settings.runner fuel).evalProgram s program m := by
  rcases (Operation.program program s).perform_approximates settings hf m with ⟨m', tired⟩ | same
  · exact absurd tired (ends m')
  · exact same

/-! ## The discipline -/

/-- The functions of the machine are free of loops and no larger than `size`. -/
def Callable.isBounded (size : Nat) : Callable → Prop
  | .closure c => c.code.all .loopFree = true ∧ sizeOf c.code ≤ size
  | .builtin _ | .host _ => True

/-- A machine on which walks end and functions are free of loops and not too large. -/
structure Machine.Bounded (size : Nat) (m : Machine) : Prop extends m.Grounded where
  functions : m.Functions (·.isBounded size)

/-- Only objects and scopes count. -/
theorem Machine.Bounded.of_stores {size : Nat} {m m' : Machine} (h : m.Bounded size)
    (objects : m'.objects = m.objects) (scopes : m'.scopes = m.scopes) : m'.Bounded size := by
  obtain ⟨_, _, _, _, _⟩ := m'
  cases objects
  cases scopes
  exact ⟨⟨⟨h.intrinsics, h.objects, h.scopes⟩, h.prototypes, h.parents⟩, h.functions⟩

namespace Discipline

/-- Everything ends, with the fuel that the active calls and the tree ask for. -/
def bounded (limit size : Nat) : Discipline where
  World := { m : Machine // m.Bounded size }
  machine := Subtype.val
  console w := w.val.console
  reaches _ w w' := w.val.objects.size ≤ w'.val.objects.size ∧
    w.val.scopes.size ≤ w'.val.scopes.size ∧ w'.val.stack = w.val.stack
  value w v := v.Below w.val.objects.size
  slot w v := v.Below w.val.objects.size
  scope w s := s.index < w.val.scopes.size
  target w o := o.index < w.val.objects.size
  builtin _ := True
  fault w f := ∀ v text trace, f = .thrown v text trace → v.Below w.val.objects.size
  checks := .loopFree
  fits n := n ≤ size
  room fuel w n := n ≤ size ∧ (limit - w.val.stack.length) * (size + 1) + n + 1 ≤ fuel
  mayEnter w := w.val.stack.length < limit
  mayExhaust := False
  inStep _ := True

variable {limit size : Nat} {w : (bounded limit size).World}

theorem bounded_property {p : Property} :
    (bounded limit size).property w p ↔ p.Below w.val.objects.size := by
  cases p with
  | data value writable => exact Iff.rfl
  | accessor getter setter => exact Iff.rfl

theorem bounded_callable {o : ObjectId} {c : Callable}
    (hc : (w.val.object o).kind = .function c) : (bounded limit size).callable w c := by
  have functions := w.property.functions o c hc
  cases c with
  | closure c => exact ⟨functions, (w.property.objects o).closure c hc⟩
  | builtin b => exact trivial
  | host f => exact trivial

/-- An object that is in order is intact. -/
theorem object.intact {o : Object} (h : (bounded limit size).object w o) :
    o.Intact w.val.objects.size w.val.scopes.size where
  prototype := h.prototype
  entries entry he := bounded_property.mp (h.properties entry he)
  host table _ _ hh _ := by
    have hk := h.kind
    rw [hh] at hk
    exact hk.elim
  closure c hc := by
    have hk := h.kind
    rw [hc] at hk
    exact hk.2.2

theorem object.functions {o : Object} (h : (bounded limit size).object w o) (c : Callable)
    (hc : o.kind = .function c) : c.isBounded size := by
  have hk := h.kind
  rw [hc] at hk
  cases c with
  | closure c => exact hk.2.1
  | builtin b => exact trivial
  | host f => exact trivial

/-- A change that leaves the machine bounded and the stack alone, and takes nothing away. -/
theorem bounded_follows {fp : Footprint} (change : Machine → Machine)
    (h : (change w.val).Bounded size)
    (objects : w.val.objects.size ≤ (change w.val).objects.size)
    (scopes : w.val.scopes.size ≤ (change w.val).scopes.size)
    (stack : (change w.val).stack = w.val.stack)
    (console : (change w.val).console = w.val.console) :
    ∃ w', (bounded limit size).Follows fp w w' change ∧ w'.val = change w.val :=
  ⟨⟨change w.val, h⟩, ⟨⟨objects, scopes, stack⟩, rfl, console⟩, rfl⟩

theorem bounded_defines {fp : Footprint} (o : ObjectId) (f : Object → Object)
    (hf : (w.val.object o).Intact w.val.objects.size w.val.scopes.size →
      (f (w.val.object o)).Intact w.val.objects.size w.val.scopes.size)
    (prototype : ∀ x, (f x).prototype = x.prototype)
    (kind : ∀ x c, (f x).kind = .function c → x.kind = .function c) :
    ∃ w', (bounded limit size).Follows fp w w' (·.modifyObject o f) := by
  have grounded := w.property.toGrounded.modifyObject o f hf (prototype _)
  have functions := w.property.functions.modify o f kind
  obtain ⟨w', follows, _⟩ := bounded_follows (·.modifyObject o f) ⟨grounded, functions⟩
    (Nat.le_of_eq (Array.size_modify ..).symm) (Nat.le_refl _) rfl rfl
  exact ⟨w', follows⟩

theorem bounded_binds {fp : Footprint} {v : Value} (s : ScopeId) (name : String)
    (isMutable : Bool) (hv : v.Below w.val.objects.size) :
    ∃ w', (bounded limit size).Follows fp w w' (·.modifyScope s fun scope =>
      { scope with bindings := scope.bindings.insert name ⟨v, isMutable⟩ }) := by
  have grounded := w.property.toGrounded.modifyScope s
    (fun scope => { scope with bindings := scope.bindings.insert name ⟨v, isMutable⟩ })
    (fun h => h.bind name hv) rfl
  obtain ⟨w', follows, _⟩ := bounded_follows (·.modifyScope s fun scope =>
      { scope with bindings := scope.bindings.insert name ⟨v, isMutable⟩ })
    ⟨grounded, w.property.functions⟩ (Nat.le_refl _) (Nat.le_of_eq (Array.size_modify ..).symm)
    rfl rfl
  exact ⟨w', follows⟩

/-- A call that may become active pays for a tree of any size. -/
theorem fuel_enter {depth fuel n : Nat} (may : depth < limit)
    (h : (limit - depth) * (size + 1) + 0 + 1 ≤ fuel + 1) (hn : n ≤ size) :
    (limit - (depth + 1)) * (size + 1) + n + 1 ≤ fuel := by
  -- the product is no linear term, so one call is taken out of it first
  obtain ⟨calls, hcalls⟩ : ∃ calls, limit - depth = calls + 1 := ⟨limit - depth - 1, by omega⟩
  have rest : limit - (depth + 1) = calls := by omega
  rw [hcalls, Nat.succ_mul] at h
  rw [rest]
  omega

theorem bounded_lawful : (bounded limit size).Lawful where
  refl _ _ := ⟨Nat.le_refl _, Nat.le_refl _, rfl⟩
  trans h h' := ⟨h.1.trans h'.1, h.2.1.trans h'.2.1, h'.2.2.trans h.2.2⟩
  value_mono h hv := hv.mono h.1
  slot_mono h hv := hv.mono h.1
  scope_mono h hs := Nat.lt_of_lt_of_le hs h.2.1
  target_mono h ho := Nat.lt_of_lt_of_le ho h.1
  fault_mono h hf v text trace he := (hf v text trace he).mono h.1
  room_mono {_ w w' _ _} h hr := ⟨hr.1, h.2.2 ▸ hr.2⟩
  intrinsic_ok w _ ho := Nat.lt_of_lt_of_le ho w.property.intrinsics
  room_sub hr hn := ⟨Nat.le_trans (Nat.le_of_lt hn) hr.1, by have := hr.2; omega⟩
  room_le hr hn := ⟨hn.trans hr.1, by have := hr.2; omega⟩
  room_fits hr := hr.1
  room_zero := .inr fun _ _ hr => absurd hr.2 (Nat.not_succ_le_zero _)
  fault_typeError _ _ _ _ _ h := nomatch h
  fault_referenceError _ _ _ _ _ h := nomatch h
  fault_rangeError _ _ _ _ _ h := nomatch h
  fault_thrown _ hv _ _ _ h := by
    cases h
    exact hv
  thrown_value hf := hf _ _ _ rfl
  thrown_text _ hf _ _ _ h := by
    cases h
    exact hf _ _ _ rfl
  fault_internal := .inl fun _ _ _ _ _ h => nomatch h
  fault_functionConstructor _ _ _ _ _ h := nomatch h
  loops := .inr fun s hs => by simpa [bounded, Checks.loopFree] using hs
  receiver_ok {w s} _ := (w.property.scopes s).receiver
  binding_ok {w s name b} hb := (w.property.scopes s).bindings _ (Table.mem_of_get? hb)
  shown_ok {w o key p} hp :=
    property.shown (bounded_property.mpr ((w.property.objects o).shown hp)) fun _ h => h
  entries_ok {w o} entry he := bounded_property.mpr ((w.property.objects o).entries entry he)
  prototype_ok {w o p} hp := (w.property.objects o).prototype p hp
  callable_ok {w v c} hc := by
    obtain ⟨o, kind⟩ := Machine.kind_of_callable? hc
    exact bounded_callable kind
  scopes_end := .inr fun w s name => w.property.nearest_ends s name
  prototypes_end := .inr fun w o key => w.property.property_ends o key
  allocates {w o} ho := by
    obtain ⟨w', follows, same⟩ := bounded_follows (fun m => { m with objects := m.objects.push o })
      ⟨w.property.toGrounded.push ho.intact, w.property.functions.push ho.functions⟩
      (by simp) (Nat.le_refl _) rfl rfl
    have last : w.val.objects.size < w'.val.objects.size := by simp [same]
    exact ⟨w', follows, last, fun _ _ => last, fun _ => last⟩
  defines {w o p} key _ hp := bounded_defines o (·.define key p)
    (fun h => h.define key (bounded_property.mp hp)) (fun _ => rfl) fun _ _ h => h
  erases {w o} key _ := bounded_defines o (·.erase key) (fun h => h.erase key) (fun _ => rfl)
    fun _ _ h => h
  boxes {w o p} _ _ := bounded_defines o ({ · with kind := .boxed p }) (fun h => h.box p)
    (fun _ => rfl) fun _ _ h => nomatch h
  opensScope {w v parent} hs hv := by
    have intact : Scope.Intact w.val.objects.size w.val.scopes.size ⟨some parent, v, .empty⟩ :=
      ⟨fun p hp => Option.some.inj hp ▸ hs, hv, fun _ he => nomatch he⟩
    obtain ⟨w', follows, same⟩ := bounded_follows
      (fun m => { m with scopes := m.scopes.push ⟨some parent, v, .empty⟩ })
      ⟨w.property.toGrounded.pushScope intact, w.property.functions⟩ (Nat.le_refl _) (by simp)
      rfl rfl
    have last : w.val.scopes.size < w'.val.scopes.size := by simp [same]
    exact ⟨w', follows, last⟩
  declares {w s v} name isMutable _ hv := bounded_binds s name isMutable hv
  assigns {w s v name b} _ _ hv := bounded_binds s name true hv
  setsClock w clock := by
    obtain ⟨w', follows, _⟩ := bounded_follows (fun m => { m with clock := clock })
      (w.property.of_stores rfl rfl) (Nat.le_refl _) (Nat.le_refl _) rfl rfl
    exact ⟨w', follows⟩
  enters {k w} frame may room := by
    refine ⟨⟨{ w.val with stack := frame :: w.val.stack }, w.property.of_stores rfl rfl⟩, ?_,
      fun fp w₂ hr => ?_⟩
    · exact {
        machine := rfl
        console := rfl
        value := fun _ h => h
        scope := fun _ h => h
        target := fun _ h => h
        calls := ⟨Nat.zero_le _, fuel_enter may room.2 (Nat.zero_le _)⟩
        room := fun n hn => ⟨hn, fuel_enter may room.2 hn⟩ }
    · exact ⟨⟨{ w₂.val with stack := w₂.val.stack.tail }, w₂.property.of_stores rfl rfl⟩, {
        reaches := ⟨hr.1, hr.2.1, congrArg List.tail hr.2.2⟩
        machine := rfl
        console := rfl
        value := fun _ h => h
        fault := fun _ h => h }⟩

theorem bounded_agree {settings : Settings} :
    (bounded settings.maxCallDepth size).Agree settings settings :=
  bounded_lawful.agree settings (fun _ _ _ _ _ _ h => nomatch h) (fun _ h => h) fun w line =>
    ⟨⟨{ w.val with console := w.val.console.push line }, w.property.of_stores rfl rfl⟩,
      ⟨Nat.le_refl _, Nat.le_refl _, rfl⟩, rfl, rfl⟩

end Discipline

/-! ## The machine of a new session -/

theorem Realm.object_prototypes (i : Nat) :
    ∃ p, prototypes[i]?.getD default = .ofPrototype p ∧ ∀ q, p = some q → q.index < min i 10 := by
  by_cases h : i < 10
  · interval_cases i <;> exact ⟨_, rfl, fun q hq => by cases hq <;> decide⟩
  · refine ⟨none, ?_, by simp⟩
    rw [Array.getElem?_eq_none (Nat.le_of_not_lt h)]
    rfl

/-- A machine that has the prototypes and nothing else. -/
theorem Realm.prototypes_bounded (size : Nat) :
    Machine.Bounded size { Machine.empty with objects := prototypes } where
  intrinsics := Nat.le_refl 10
  objects o := by
    obtain ⟨p, he, hp⟩ := object_prototypes o.index
    rw [Machine.object, he]
    exact .ofPrototype fun q hq => Nat.lt_of_lt_of_le (hp q hq) (Nat.min_le_right ..)
  scopes s := .default
  prototypes := by
    refine ⟨fun o => min o.index 10, fun o p hp => ?_, fun o => Nat.min_le_right ..⟩
    obtain ⟨q, he, hq⟩ := object_prototypes o.index
    rw [Machine.Inherits, Machine.object, he] at hp
    exact Nat.lt_of_le_of_lt (Nat.min_le_left ..) (hq p hp)
  parents := by
    refine ⟨fun _ => 0, fun s p hp => ?_, fun _ => Nat.zero_le _⟩
    cases hp
  functions o c hc := by
    obtain ⟨p, he, _⟩ := object_prototypes o.index
    rw [Machine.object, he] at hc
    cases hc

/-- A new session starts on a machine whose walks end and whose functions are those of the
library. -/
theorem Session.start_bounded (settings : Settings) (setup : GlobalSetup) (size : Nat)
    (receiver : setup.receiver.Below 10) (extras : ∀ entry ∈ setup.extras, entry.2.Below 10) :
    (start settings (pure setup)).machine.Bounded size := by
  have law : (Discipline.bounded 0 size).Lawful := Discipline.bounded_lawful
  obtain ⟨⟨m, bounded⟩, hm, globals⟩ := law.realm (fun _ => trivial)
    (w := ⟨_, Realm.prototypes_bounded size⟩) rfl
  rw [start_machine, ← hm]
  refine ⟨bounded.toGrounded.pushScope ⟨by simp, receiver.mono bounded.intrinsics, ?_⟩,
    bounded.functions⟩
  intro entry he
  rcases List.mem_append.mp (Table.mem_ofList he) with he | he
  · exact globals entry he
  · obtain ⟨extra, hextra, rfl⟩ := List.mem_map.mp he
    exact (extras extra hextra).mono bounded.intrinsics

/-! ## Programs -/

/-- Whether no statement of a program is a loop, those of functions included. -/
def Program.isLoopFree (program : Program) : Bool := allStmts .loopFree program.body

/-- The size of the code of a function of scripts, zero for other objects. -/
noncomputable def Object.codeSize (o : Object) : Nat :=
  match o.kind with
  | .function (.closure c) => sizeOf c.code
  | _ => 0

/-- There is a size that no function of the machine exceeds. -/
theorem Machine.exists_size (m : Machine) :
    ∃ size, ∀ o c, (m.object o).kind = .function (.closure c) → sizeOf c.code ≤ size := by
  refine ⟨(Finset.range m.objects.size).sup fun i => (m.object ⟨i⟩).codeSize, fun o c hc => ?_⟩
  have there : o.index ∈ Finset.range m.objects.size := by
    rw [Finset.mem_range]
    by_contra out
    rw [Machine.object, Array.getElem?_eq_none (Nat.le_of_not_lt out)] at hc
    cases hc
  calc sizeOf c.code
    _ = (m.object o).codeSize := by rw [Object.codeSize, hc]
    _ ≤ _ := Finset.le_sup (f := fun i => (m.object ⟨i⟩).codeSize) there

/-- Fuel for the calls that may still become active, and for a tree, is enough. -/
theorem evalProgram_ends {settings : Settings} {s : ScopeId} {program : Program} {m : Machine}
    {size fuel : Nat} (bounded : m.Bounded size) (hs : s.index < m.scopes.size)
    (loopFree : program.isLoopFree = true) (hsize : sizeOf program.body ≤ size)
    (enough : (settings.maxCallDepth - m.stack.length) * (size + 1) + size + 1 ≤ fuel)
    (m' : Machine) : (settings.runner fuel).evalProgram s program m ≠ .exhausted m' := by
  have law : (Discipline.bounded settings.maxCallDepth size).Lawful := Discipline.bounded_lawful
  have runs := law.runner Discipline.bounded_agree (Nat.le_refl fuel) fun _ => rfl
  have room : (Discipline.bounded settings.maxCallDepth size).room fuel ⟨m, bounded⟩
      (sizeOf program.body) := ⟨hsize, by dsimp only; omega⟩
  refine (runs.evalProgram (w := ⟨m, bounded⟩) ⟨loopFree, room⟩ hs fun refines => ?_).ne_exhausted
    id m'
  -- loop-free trees need not be supported, so nothing is asked about jumps
  cases refines.expr .unsupported rfl

/-- A program without loops ends, whatever the limit on calls and whatever it calls: with enough
fuel it has one outcome. -/
theorem evalProgram_terminates (settings : Settings) {s : ScopeId} {program : Program} {m : Machine}
    (intact : m.Intact) (acyclic : m.Acyclic) (hs : s.index < m.scopes.size)
    (functions : ∀ o c, (m.object o).kind = .function (.closure c) →
      c.code.all .loopFree = true)
    (loopFree : program.isLoopFree = true) :
    ∃ fuel outcome, (∀ m', outcome ≠ .exhausted m') ∧
      ∀ fuel', fuel ≤ fuel' → (settings.runner fuel').evalProgram s program m = outcome := by
  obtain ⟨size, hsize⟩ := m.exists_size
  have bounded : m.Bounded (max size (sizeOf program.body)) := by
    refine ⟨acyclic.grounded intact, fun o c hc => ?_⟩
    cases c with
    | closure c => exact ⟨functions o c hc, (hsize o c hc).trans (Nat.le_max_left ..)⟩
    | builtin b => exact trivial
    | host f => exact trivial
  obtain ⟨fuel, ends⟩ :
      ∃ fuel, ∀ m', (settings.runner fuel).evalProgram s program m ≠ .exhausted m' :=
    ⟨_, evalProgram_ends bounded hs loopFree (Nat.le_max_right ..) (Nat.le_refl _)⟩
  exact ⟨fuel, _, ends, fun fuel' hf => evalProgram_mono settings hf ends⟩

/-- `function f() { return f(); }  f();` -/
def selfCallProgram : Program :=
  ⟨[.function ⟨some "f", [], .block [.ret (some (.call (.ident "f") []))], false, false, none⟩,
    .expression (.call (.ident "f") [])]⟩

theorem evalProgram_terminates_selfCall :
    let m := (Session.start .standard (pure ⟨.undefined, []⟩)).machine
    m.Intact ∧ m.Acyclic ∧ selfCallProgram.isLoopFree = true ∧
      ∃ fuel outcome, (∀ m', outcome ≠ .exhausted m') ∧
        ∀ fuel', fuel ≤ fuel' →
          (Settings.standard.runner fuel').evalProgram .global selfCallProgram m = outcome := by
  intro m
  have bounded : m.Bounded 0 := Session.start_bounded .standard ⟨.undefined, []⟩ 0 trivial (by simp)
  have global : ScopeId.global.index < m.scopes.size := by
    show 0 < m.scopes.size
    simp only [m, Session.start_machine, Array.size_push, Nat.zero_lt_succ]
  exact ⟨bounded.toIntact, bounded.acyclic, rfl,
    evalProgram_terminates .standard bounded.toIntact bounded.acyclic global
      (fun o c hc => (bounded.functions o _ hc).1) rfl⟩

end ScriptTree
