import Mathlib.Data.List.Nodup
import Mathlib.Data.List.Perm.Subperm
import ScriptTree.Proofs.Stores

/-!
# Walks and their bounds

The walks of a machine carry a bound, so that they are defined where links go in a circle.  The
bound does not show: a walk that passes a place goes on as one that starts at the next place
(`Machine.property_eq`, `Machine.nearest_eq`).

*Paths.*  A path lists the places from one to the end of its links.  No place comes twice, so a path
has at most one place more than there are places with a link.

*Searches.*  A search stops where it finds something.  If it comes to an end it has a path, and the
path is within the bound.  If it does not, it is endless whatever the bound.
-/

namespace ScriptTree

/-! ## Paths -/

/-- The places from one to the end of its links. -/
inductive Path {ι : Type} (next : ι → Option ι) : ι → List ι → Prop where
  | last {a : ι} : next a = none → Path next a [a]
  | link {a b : ι} {rest : List ι} : next a = some b → Path next b rest → Path next a (a :: rest)

namespace Path

variable {ι : Type} {next : ι → Option ι} {a : ι} {path path' : List ι}

theorem unique (h : Path next a path) (h' : Path next a path') : path = path' := by
  induction h generalizing path' with
  | last none =>
      cases h' with
      | last _ => rfl
      | link next _ => cases none.symm.trans next
  | link next _ ih =>
      cases h' with
      | last none => cases none.symm.trans next
      | link next' rest' =>
          cases next.symm.trans next'
          rw [ih rest']

/-- A place of a path has a path that is no longer. -/
theorem of_mem (h : Path next a path) {b : ι} (hb : b ∈ path) :
    ∃ rest, Path next b rest ∧ rest.length ≤ path.length := by
  induction h with
  | last none =>
      cases List.mem_singleton.mp hb
      exact ⟨_, .last none, Nat.le_refl _⟩
  | link next rest ih =>
      rcases List.mem_cons.mp hb with rfl | hb
      · exact ⟨_, .link next rest, Nat.le_refl _⟩
      · obtain ⟨rest', path', le⟩ := ih hb
        exact ⟨rest', path', Nat.le_succ_of_le le⟩

/-- No place comes twice: its path would be shorter than itself. -/
theorem nodup (h : Path next a path) : path.Nodup := by
  induction h with
  | last _ => exact List.nodup_singleton _
  | @link a b rest next path ih =>
      refine List.nodup_cons.mpr ⟨fun again => ?_, ih⟩
      obtain ⟨rest', path', le⟩ := path.of_mem again
      have same : a :: rest = rest' := unique (.link next path) path'
      rw [← same, List.length_cons] at le
      omega

theorem ne_nil (h : Path next a path) : path ≠ [] := by
  cases h with
  | last _ => simp
  | link _ _ => simp

/-- All places of a path but the last have a link. -/
theorem linked (h : Path next a path) {b : ι} (hb : b ∈ path.dropLast) : ∃ c, next b = some c := by
  induction h with
  | last _ => cases hb
  | link next rest ih =>
      rw [List.dropLast_cons_of_ne_nil rest.ne_nil] at hb
      rcases List.mem_cons.mp hb with rfl | hb
      · exact ⟨_, next⟩
      · exact ih hb

/-- If all places with a link are among `n`, a path has at most one more. -/
theorem length_le (h : Path next a path) {place : ι → Nat} (injective : Function.Injective place)
    {n : Nat} (inside : ∀ b c, next b = some c → place b < n) : path.length ≤ n + 1 := by
  have distinct : (path.dropLast.map place).Nodup :=
    (h.nodup.sublist (List.dropLast_sublist path)).map injective
  have within : path.dropLast.map place ⊆ List.range n := by
    intro i hi
    obtain ⟨b, hb, rfl⟩ := List.mem_map.mp hi
    obtain ⟨c, next⟩ := h.linked hb
    exact List.mem_range.mpr (inside b c next)
  have count := (distinct.subperm within).length_le
  simp only [List.length_map, List.length_dropLast, List.length_range] at count
  omega

end Path

/-! ## Searches -/

namespace Search

/-- A search that has come to an end. -/
def ofOption {α : Type} : Option α → Search α
  | some a => .found a
  | none => .absent

variable {ι α : Type} (look : ι → Option α) (next : ι → Option ι)

/-- Looks at a place and then at those its links lead to, at most `bound` of them. -/
def within : Nat → ι → Search α
  | 0, _ => .endless
  | bound + 1, a =>
      match look a with
      | some x => .found x
      | none =>
          match next a with
          | some b => within bound b
          | none => .absent

/-- Where a search goes from a place: nowhere once it has found something. -/
def onward (a : ι) : Option ι :=
  match look a with
  | some _ => none
  | none => next a

variable {look next} {a b : ι} {path : List ι} {bound : Nat}

theorem onward_eq_some (h : onward look next a = some b) : look a = none ∧ next a = some b := by
  unfold onward at h
  split at h
  next => cases h
  next nothing => exact ⟨nothing, h⟩

/-- With its path within the bound, a search gives the first thing on the path. -/
theorem within_of_path (h : Path (onward look next) a path) (le : path.length ≤ bound) :
    within look next bound a = .ofOption (path.findSome? look) := by
  induction h generalizing bound with
  | @last a stops =>
      obtain ⟨bound, rfl⟩ : ∃ n, bound = n + 1 := ⟨bound - 1, by simp at le; omega⟩
      unfold onward at stops
      rw [within, List.findSome?_singleton]
      cases found : look a with
      | some x => rfl
      | none =>
          simp only [found] at stops
          simp only [stops, ofOption]
  | @link a b rest goes _ ih =>
      obtain ⟨bound, rfl⟩ : ∃ n, bound = n + 1 := ⟨bound - 1, by simp at le; omega⟩
      obtain ⟨nothing, goes⟩ := onward_eq_some goes
      simp only [within, List.findSome?_cons, nothing, goes]
      exact ih (Nat.le_of_succ_le_succ le)

/-- A search that comes to an end has a path within its bound. -/
theorem path_of_within (h : within look next bound a ≠ .endless) :
    ∃ path, Path (onward look next) a path ∧ path.length ≤ bound := by
  induction bound generalizing a with
  | zero => exact absurd rfl h
  | succ bound ih =>
      rw [within] at h
      cases found : look a with
      | some x => exact ⟨[a], .last (by simp only [onward, found]), Nat.le_add_left 1 bound⟩
      | none =>
          simp only [found] at h
          cases goes : next a with
          | none => exact ⟨[a], .last (by simp only [onward, found, goes]), Nat.le_add_left 1 bound⟩
          | some b =>
              simp only [goes] at h
              obtain ⟨path, hpath, le⟩ := ih h
              exact ⟨a :: path, .link (by simp only [onward, found, goes]) hpath,
                Nat.succ_le_succ le⟩

/-- A search with a bound past all places with a link goes on as one that starts at the next place:
either its path is within both bounds, or both are endless. -/
theorem within_eq {place : ι → Nat} (injective : Function.Injective place) {n : Nat}
    (inside : ∀ b c, next b = some c → place b < n) (a : ι) :
    within look next (n + 1) a =
      match look a with
      | some x => .found x
      | none =>
          match next a with
          | some b => within look next (n + 1) b
          | none => .absent := by
  rw [within]
  cases found : look a with
  | some x => rfl
  | none =>
      cases goes : next a with
      | none => rfl
      | some b =>
          simp only
          by_cases ends : ∃ path, Path (onward look next) b path
          · obtain ⟨path, hpath⟩ := ends
            have whole : Path (onward look next) a (a :: path) :=
              .link (by simp only [onward, found, goes]) hpath
            have le : path.length ≤ n := by
              have := whole.length_le injective fun b c h => inside b c (onward_eq_some h).2
              simpa using this
            rw [within_of_path hpath le, within_of_path hpath (Nat.le_succ_of_le le)]
          · have endless (bound : Nat) : within look next bound b = .endless := by
              by_contra h
              obtain ⟨path, hpath, _⟩ := path_of_within h
              exact ends ⟨path, hpath⟩
            rw [endless, endless]

end Search

/-! ## The walks of a machine -/

namespace Machine

variable (m : Machine)

/-- An object that has a prototype is on the heap. -/
theorem inside_of_prototype {o p : ObjectId} (h : (m.object o).prototype = some p) :
    o.index < m.objects.size := by
  by_contra past
  rw [m.object_default (Nat.le_of_not_lt past)] at h
  cases h

/-- A scope that has a parent is there. -/
theorem inside_of_parent {s p : ScopeId} (h : (m.scope s).parent = some p) :
    s.index < m.scopes.size := by
  by_contra past
  rw [m.scope_default (Nat.le_of_not_lt past)] at h
  cases h

theorem propertyWithin_eq_within (key : String) (bound : Nat) (o : ObjectId) :
    m.propertyWithin key bound o =
      Search.within (fun o => (m.object o).own? key) (fun o => (m.object o).prototype) bound o := by
  induction bound generalizing o with
  | zero => rfl
  | succ bound ih =>
      rw [propertyWithin, Search.within]
      cases (m.object o).own? key with
      | some property => rfl
      | none =>
          cases (m.object o).prototype with
          | some parent => exact ih parent
          | none => rfl

theorem nearestWithin_eq_within (name : String) (bound : Nat) (s : ScopeId) :
    m.nearestWithin name bound s =
      Search.within (fun s => ((m.scope s).bindings.get? name).map (s, ·))
        (fun s => (m.scope s).parent) bound s := by
  induction bound generalizing s with
  | zero => rfl
  | succ bound ih =>
      rw [nearestWithin, Search.within]
      cases (m.scope s).bindings.get? name with
      | some binding => rfl
      | none =>
          cases (m.scope s).parent with
          | some parent => exact ih parent
          | none => rfl

/-- The first property on a chain is an own one, or else the first one from the prototype on. -/
theorem property_eq (o : ObjectId) (key : String) :
    m.property o key =
      match (m.object o).own? key with
      | some property => .found property
      | none =>
          match (m.object o).prototype with
          | some parent => m.property parent key
          | none => .absent := by
  have injective : Function.Injective ObjectId.index := by
    rintro ⟨p⟩ ⟨q⟩ same
    cases same
    rfl
  simp only [property, propertyWithin_eq_within]
  rw [Search.within_eq injective (fun _ _ => m.inside_of_prototype) o]
  cases (m.object o).own? key with
  | some property => rfl
  | none => cases (m.object o).prototype <;> rfl

/-- The nearest binding of a name is one of the scope itself, or else the nearest one from the scope
around it. -/
theorem nearest_eq (s : ScopeId) (name : String) :
    m.nearest s name =
      match (m.scope s).bindings.get? name with
      | some binding => .found (s, binding)
      | none =>
          match (m.scope s).parent with
          | some parent => m.nearest parent name
          | none => .absent := by
  have injective : Function.Injective ScopeId.index := by
    rintro ⟨p⟩ ⟨q⟩ same
    cases same
    rfl
  simp only [nearest, nearestWithin_eq_within]
  rw [Search.within_eq injective (fun _ _ => m.inside_of_parent) s]
  cases (m.scope s).bindings.get? name with
  | some binding => rfl
  | none => cases (m.scope s).parent <;> rfl

end Machine

end ScriptTree
