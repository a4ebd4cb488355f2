import Mathlib.Data.Finset.Card
import Mathlib.Logic.Relation
import ScriptTree.Proofs.Stores

/-!
# References

A machine is *intact* when its references lead somewhere: the values it holds, prototypes, the
scopes of functions and the scopes around scopes.  Changes by primitive actions with such values
keep it so.

On an intact machine without circles the walks along prototypes and scopes have an end.  The reason
is a rank for each place that falls along links and is at most the number of places, so a walk is
shorter than the bound it has.
-/

namespace ScriptTree

/-! ## Where references lead -/

/-- The value is no object past the first `n`. -/
def Value.Below (n : Nat) : Value → Prop
  | .primitive _ => True
  | .object o => o.index < n

/-- The values of the property are no objects past the first `n`. -/
def Property.Below (n : Nat) : Property → Prop
  | .data value _ => value.Below n
  | .accessor getter setter => getter.Below n ∧ setter.Below n

/-- All that an object refers to is among `n` objects and `k` scopes. -/
structure Object.Intact (n k : Nat) (o : Object) : Prop where
  prototype : ∀ p, o.prototype = some p → p.index < n
  entries : ∀ entry ∈ o.properties.entries, entry.2.Below n
  host : ∀ table key p, o.kind = .host table → table.property? key = some p → p.Below n
  closure : ∀ c, o.kind = .function (.closure c) → c.scope.index < k

/-- All that a scope refers to is among `n` objects and `k` scopes. -/
structure Scope.Intact (n k : Nat) (s : Scope) : Prop where
  parent : ∀ p, s.parent = some p → p.index < k
  receiver : s.receiver.Below n
  bindings : ∀ entry ∈ s.bindings.entries, entry.2.value.Below n

/-- The machine has the objects that every machine has, and its references lead somewhere. -/
structure Machine.Intact (m : Machine) : Prop where
  intrinsics : 10 ≤ m.objects.size
  objects : ∀ o, (m.object o).Intact m.objects.size m.scopes.size
  scopes : ∀ s, (m.scope s).Intact m.objects.size m.scopes.size

variable {n n' k k' : Nat}

theorem Value.Below.mono {v : Value} (h : v.Below n) (hn : n ≤ n') : v.Below n' := by
  cases v with
  | primitive p => exact trivial
  | object o => exact Nat.lt_of_lt_of_le h hn

theorem Property.Below.mono {p : Property} (h : p.Below n) (hn : n ≤ n') : p.Below n' := by
  cases p with
  | data value writable => exact Value.Below.mono h hn
  | accessor getter setter => exact ⟨h.1.mono hn, h.2.mono hn⟩

theorem Object.Intact.mono {o : Object} (h : o.Intact n k) (hn : n ≤ n') (hk : k ≤ k') :
    o.Intact n' k' where
  prototype p hp := Nat.lt_of_lt_of_le (h.prototype p hp) hn
  entries entry he := (h.entries entry he).mono hn
  host table key p hh hp := (h.host table key p hh hp).mono hn
  closure c hc := Nat.lt_of_lt_of_le (h.closure c hc) hk

theorem Scope.Intact.mono {s : Scope} (h : s.Intact n k) (hn : n ≤ n') (hk : k ≤ k') :
    s.Intact n' k' where
  parent p hp := Nat.lt_of_lt_of_le (h.parent p hp) hk
  receiver := h.receiver.mono hn
  bindings entry he := (h.bindings entry he).mono hn

/-- What an object shows without having it in its table. -/
theorem Object.Intact.shown {o : Object} (h : o.Intact n k) {key : String} {p : Property}
    (hp : o.kind.property? key = some p) : p.Below n := by
  cases kind : o.kind with
  | host table =>
      rw [kind] at hp
      exact h.host table key p kind hp
  | boxed q =>
      rw [kind] at hp
      cases q with
      | string s =>
          obtain ⟨value, rfl⟩ := textProperty?_eq_some hp
          exact trivial
      | _ => cases hp
  | _ =>
      rw [kind] at hp
      cases hp

/-- An object of nothing but its prototype. -/
theorem Object.Intact.ofPrototype {prototype : Option ObjectId}
    (h : ∀ p, prototype = some p → p.index < n) : (Object.ofPrototype prototype).Intact n k := by
  refine ⟨h, ?_, ?_, ?_⟩
  · intro entry he
    cases he
  · intro table key p hh
    cases hh
  · intro c hc
    cases hc

/-- A scope without parent or names. -/
theorem Scope.Intact.default : (default : Scope).Intact n k := by
  refine ⟨?_, trivial, ?_⟩
  · intro p hp
    cases hp
  · intro entry he
    cases he

/-! ## Changes -/

theorem Object.Intact.define {o : Object} (h : o.Intact n k) (key : String) {p : Property}
    (hp : p.Below n) : (o.define key p).Intact n k where
  prototype := h.prototype
  entries entry he := by
    rcases Table.mem_insert he with rfl | he
    · exact hp
    · exact h.entries entry he
  host := h.host
  closure := h.closure

theorem Object.Intact.erase {o : Object} (h : o.Intact n k) (key : String) :
    (o.erase key).Intact n k where
  prototype := h.prototype
  entries entry he := h.entries entry (Table.mem_erase he)
  host := h.host
  closure := h.closure

theorem Object.Intact.box {o : Object} (h : o.Intact n k) (p : Primitive) :
    Object.Intact n k { o with kind := .boxed p } where
  prototype := h.prototype
  entries := h.entries
  host _ _ _ hh _ := nomatch hh
  closure _ hc := nomatch hc

theorem Scope.Intact.bind {s : Scope} (h : s.Intact n k) (name : String) {b : Binding}
    (hb : b.value.Below n) : Scope.Intact n k { s with bindings := s.bindings.insert name b } where
  parent := h.parent
  receiver := h.receiver
  bindings entry he := by
    rcases Table.mem_insert he with rfl | he
    · exact hb
    · exact h.bindings entry he

namespace Machine.Intact

variable {m : Machine} (h : m.Intact)
include h

theorem push {o : Object} (ho : o.Intact m.objects.size m.scopes.size) :
    Machine.Intact { m with objects := m.objects.push o } := by
  have size : m.objects.size ≤ (m.objects.push o).size := by simp
  refine ⟨h.intrinsics.trans size, fun i => ?_, fun s => (h.scopes s).mono size (Nat.le_refl _)⟩
  rw [object_push]
  split
  · exact ho.mono size (Nat.le_refl _)
  · exact (h.objects i).mono size (Nat.le_refl _)

theorem modifyObject (o : ObjectId) (f : Object → Object)
    (hf : (m.object o).Intact m.objects.size m.scopes.size →
      (f (m.object o)).Intact m.objects.size m.scopes.size) : (m.modifyObject o f).Intact := by
  have size : (m.modifyObject o f).objects.size = m.objects.size := Array.size_modify ..
  refine ⟨size ▸ h.intrinsics, fun i => ?_, fun s => ?_⟩
  · rw [object_modify, size]
    split
    · exact hf (h.objects o)
    · exact h.objects i
  · rw [size]
    exact h.scopes s

theorem pushScope {s : Scope} (hs : s.Intact m.objects.size m.scopes.size) :
    Machine.Intact { m with scopes := m.scopes.push s } := by
  have size : m.scopes.size ≤ (m.scopes.push s).size := by simp
  refine ⟨h.intrinsics, fun i => (h.objects i).mono (Nat.le_refl _) size, fun i => ?_⟩
  rw [scope_push]
  split
  · exact hs.mono (Nat.le_refl _) size
  · exact (h.scopes i).mono (Nat.le_refl _) size

theorem modifyScope (s : ScopeId) (f : Scope → Scope)
    (hf : (m.scope s).Intact m.objects.size m.scopes.size →
      (f (m.scope s)).Intact m.objects.size m.scopes.size) : (m.modifyScope s f).Intact := by
  have size : (m.modifyScope s f).scopes.size = m.scopes.size := Array.size_modify ..
  refine ⟨h.intrinsics, fun i => ?_, fun i => ?_⟩
  · rw [size]
    exact h.objects i
  · rw [scope_modify, size]
    split
    · exact hf (h.scopes s)
    · exact h.scopes i

end Machine.Intact

/-! ## Ranks -/

/-- Places have ranks that fall along links and are at most `n`. -/
def Ranked {ι : Type} (link : ι → ι → Prop) (n : Nat) : Prop :=
  ∃ rank : ι → Nat, (∀ a b, link a b → rank b < rank a) ∧ ∀ a, rank a ≤ n

namespace Ranked

variable {ι : Type} {link link' : ι → ι → Prop}

/-- Without circles, the rank of a place is the number of places that links lead to from there. -/
theorem of_acyclic {place : Nat → ι} (acyclic : ∀ a, ¬Relation.TransGen link a a)
    (inside : ∀ a b, link a b → ∃ i < n, place i = b) : Ranked link n := by
  classical
  refine ⟨fun a => {i ∈ Finset.range n | Relation.TransGen link a (place i)}.card, ?_, ?_⟩
  · -- what is reached from `b` is reached from `a`, and so is `b`, which is not on a circle
    intro a b hab
    apply Finset.card_lt_card
    refine (Finset.ssubset_iff_of_subset ?_).mpr ?_
    · intro i hi
      rw [Finset.mem_filter] at hi ⊢
      exact ⟨hi.1, .head hab hi.2⟩
    · obtain ⟨i, hi, rfl⟩ := inside a b hab
      refine ⟨i, Finset.mem_filter.mpr ⟨Finset.mem_range.mpr hi, .single hab⟩, fun hmem => ?_⟩
      exact acyclic _ (Finset.mem_filter.mp hmem).2
  · intro a
    exact (Finset.card_filter_le _ _).trans (Finset.card_range n).le

/-- Ranks leave no circle. -/
theorem acyclic (h : Ranked link n) (a : ι) : ¬Relation.TransGen link a a := by
  obtain ⟨rank, falls, _⟩ := h
  have fall {b c : ι} (hbc : Relation.TransGen link b c) : rank c < rank b := by
    induction hbc with
    | single hbc => exact falls _ _ hbc
    | tail _ hcd ih => exact (falls _ _ hcd).trans ih
  exact fun circle => Nat.lt_irrefl _ (fall circle)

theorem mono (h : Ranked link n) (hl : ∀ a b, link' a b → link a b) : Ranked link' n := by
  obtain ⟨rank, falls, bound⟩ := h
  exact ⟨rank, fun a b hab => falls a b (hl a b hab), bound⟩

/-- A place that no link leads to can be added. -/
theorem extend [DecidableEq ι] (h : Ranked link n) (new : ι)
    (old : ∀ a b, link' a b → a ≠ new → link a b) (unseen : ∀ a b, link' a b → b ≠ new) :
    Ranked link' (n + 1) := by
  obtain ⟨rank, falls, bound⟩ := h
  refine ⟨fun a => if a = new then n + 1 else rank a, fun a b hab => ?_, fun a => ?_⟩
  · simp only [if_neg (unseen a b hab)]
    split
    · exact Nat.lt_succ_of_le (bound b)
    next ne => exact falls a b (old a b hab ne)
  · dsimp only
    split
    · exact Nat.le_refl _
    · exact (bound a).trans (Nat.le_succ n)

end Ranked

/-! ## Walks that end -/

/-- One object is the prototype of another. -/
def Machine.Inherits (m : Machine) (o p : ObjectId) : Prop := (m.object o).prototype = some p

/-- One scope is right inside another. -/
def Machine.Inside (m : Machine) (s p : ScopeId) : Prop := (m.scope s).parent = some p

/-- No object is on its own prototype chain, and no scope is around itself. -/
structure Machine.Acyclic (m : Machine) : Prop where
  prototypes : ∀ o, ¬Relation.TransGen m.Inherits o o
  scopes : ∀ s, ¬Relation.TransGen m.Inside s s

/-- An intact machine whose links have ranks. -/
structure Machine.Grounded (m : Machine) : Prop extends m.Intact where
  prototypes : Ranked m.Inherits m.objects.size
  parents : Ranked m.Inside m.scopes.size

namespace Machine

variable {m : Machine}

theorem Acyclic.grounded (acyclic : m.Acyclic) (intact : m.Intact) : m.Grounded where
  toIntact := intact
  prototypes := .of_acyclic acyclic.prototypes fun o p hp =>
    ⟨p.index, (intact.objects o).prototype p hp, (rfl : ObjectId.mk p.index = p)⟩
  parents := .of_acyclic acyclic.scopes fun s p hp =>
    ⟨p.index, (intact.scopes s).parent p hp, (rfl : ScopeId.mk p.index = p)⟩

theorem Grounded.acyclic (h : m.Grounded) : m.Acyclic where
  prototypes o := h.prototypes.acyclic o
  scopes s := h.parents.acyclic s

theorem propertyWithin_ends {rank : ObjectId → Nat}
    (falls : ∀ o p, m.Inherits o p → rank p < rank o) (key : String) {bound : Nat} {o : ObjectId}
    (h : rank o < bound) : m.propertyWithin key bound o ≠ .endless := by
  induction bound generalizing o with
  | zero => cases h
  | succ bound ih =>
      rw [propertyWithin]
      split
      · simp
      · split
        next parent hp =>
          exact ih (Nat.lt_of_lt_of_le (falls o parent hp) (Nat.le_of_lt_succ h))
        next => simp

theorem nearestWithin_ends {rank : ScopeId → Nat}
    (falls : ∀ s p, m.Inside s p → rank p < rank s) (name : String) {bound : Nat} {s : ScopeId}
    (h : rank s < bound) : m.nearestWithin name bound s ≠ .endless := by
  induction bound generalizing s with
  | zero => cases h
  | succ bound ih =>
      rw [nearestWithin]
      split
      · simp
      · split
        next parent hp =>
          exact ih (Nat.lt_of_lt_of_le (falls s parent hp) (Nat.le_of_lt_succ h))
        next => simp

namespace Grounded

variable (h : m.Grounded)
include h

theorem property_ends (o : ObjectId) (key : String) : m.property o key ≠ .endless := by
  obtain ⟨rank, falls, bound⟩ := h.prototypes
  exact propertyWithin_ends falls key (Nat.lt_succ_of_le (bound o))

theorem nearest_ends (s : ScopeId) (name : String) : m.nearest s name ≠ .endless := by
  obtain ⟨rank, falls, bound⟩ := h.parents
  exact nearestWithin_ends falls name (Nat.lt_succ_of_le (bound s))

theorem push {o : Object} (ho : o.Intact m.objects.size m.scopes.size) :
    Machine.Grounded { m with objects := m.objects.push o } := by
  refine ⟨h.toIntact.push ho, ?_, h.parents⟩
  show Ranked _ (m.objects.push o).size
  rw [Array.size_push]
  refine h.prototypes.extend ⟨m.objects.size⟩ ?_ ?_
  · intro a b hab ne
    rw [Inherits, object_push, if_neg fun he => ne (congrArg ObjectId.mk he)] at hab
    exact hab
  · intro a b hab he
    rw [Inherits, object_push] at hab
    subst he
    split at hab
    · exact Nat.lt_irrefl _ (ho.prototype _ hab)
    · exact Nat.lt_irrefl _ ((h.objects a).prototype _ hab)

theorem modifyObject (o : ObjectId) (f : Object → Object)
    (hf : (m.object o).Intact m.objects.size m.scopes.size →
      (f (m.object o)).Intact m.objects.size m.scopes.size)
    (prototype : (f (m.object o)).prototype = (m.object o).prototype) :
    (m.modifyObject o f).Grounded := by
  refine ⟨h.toIntact.modifyObject o f hf, ?_, h.parents⟩
  have size : (m.modifyObject o f).objects.size = m.objects.size := Array.size_modify ..
  rw [size]
  refine h.prototypes.mono fun a b hab => ?_
  rw [Inherits, object_modify] at hab
  split at hab
  next he =>
    rw [prototype] at hab
    rw [he.1]
    exact hab
  next => exact hab

theorem pushScope {s : Scope} (hs : s.Intact m.objects.size m.scopes.size) :
    Machine.Grounded { m with scopes := m.scopes.push s } := by
  refine ⟨h.toIntact.pushScope hs, h.prototypes, ?_⟩
  show Ranked _ (m.scopes.push s).size
  rw [Array.size_push]
  refine h.parents.extend ⟨m.scopes.size⟩ ?_ ?_
  · intro a b hab ne
    rw [Inside, scope_push, if_neg fun he => ne (congrArg ScopeId.mk he)] at hab
    exact hab
  · intro a b hab he
    rw [Inside, scope_push] at hab
    subst he
    split at hab
    · exact Nat.lt_irrefl _ (hs.parent _ hab)
    · exact Nat.lt_irrefl _ ((h.scopes a).parent _ hab)

theorem modifyScope (s : ScopeId) (f : Scope → Scope)
    (hf : (m.scope s).Intact m.objects.size m.scopes.size →
      (f (m.scope s)).Intact m.objects.size m.scopes.size)
    (parent : (f (m.scope s)).parent = (m.scope s).parent) : (m.modifyScope s f).Grounded := by
  refine ⟨h.toIntact.modifyScope s f hf, h.prototypes, ?_⟩
  have size : (m.modifyScope s f).scopes.size = m.scopes.size := Array.size_modify ..
  rw [size]
  refine h.parents.mono fun a b hab => ?_
  rw [Inside, scope_modify] at hab
  split at hab
  next he =>
    rw [parent] at hab
    rw [he.1]
    exact hab
  next => exact hab

end Grounded

end Machine

end ScriptTree
