import ScriptTree.Proofs.ArrayLikes
import ScriptTree.Proofs.Boxes
import ScriptTree.Proofs.CallStack
import ScriptTree.Proofs.ScopeFrame

/-!
# Arrays read back

An array, or the `arguments` of a call, is an object with one entry for each value and a `length`.
Spreading it gives the values back (`spreads_back`).  All the keys that are read are entries of its
own, so the prototypes are not looked at, whatever script has made of them.

It follows that a rest parameter, which is an array of the arguments that are left, spreads to
these.
-/

namespace ScriptTree

namespace Eval

variable {values : List Value}

/-! ## Entries -/

/-- The object that has the given values under their indices, and a length. -/
def indexed (prototype : ObjectId) (values : List Value) : Object :=
  { Object.ofPrototype (some prototype) with properties := .ofList (indexedEntries 0 values) }

/-- Writing the entries of a list, from `index` on. -/
def writeIndexed (t : Table Property) (index : Nat) (values : List Value) : Table Property :=
  (indexedEntries index values).foldl (fun t entry => t.insert entry.1 entry.2) t

theorem writeIndexed_cons (t : Table Property) (index : Nat) (v : Value) (values : List Value) :
    writeIndexed t index (v :: values) =
      writeIndexed (t.insert (indexText index) (.writable v)) (index + 1) values := rfl

theorem get?_writeIndexed_length (t : Table Property) (index : Nat) (values : List Value) :
    (writeIndexed t index values).get? "length" =
      some (.writable (.number (Float.ofNat (index + values.length)))) := by
  induction values generalizing t index with
  | nil => exact (t.get?_insert _ _ _).trans (if_pos rfl)
  | cons v values ih =>
      rw [writeIndexed_cons, ih, List.length_cons, Nat.add_assoc, Nat.add_comm 1]

/-- Smaller indices keep their entries. -/
theorem get?_writeIndexed_of_lt {t : Table Property} {i index : Nat} (before : i < index)
    (values : List Value) :
    (writeIndexed t index values).get? (indexText i) = t.get? (indexText i) := by
  induction values generalizing t index with
  | nil => exact (t.get?_insert _ _ _).trans (if_neg (indexText_ne_length i))
  | cons v values ih =>
      have other : indexText i ≠ indexText index := by
        rw [ne_eq, indexText_inj]
        omega
      rw [writeIndexed_cons, ih (Nat.lt_succ_of_lt before), Table.get?_insert, if_neg other]

theorem get?_writeIndexed {v : Value} {i : Nat} (t : Table Property) (index : Nat)
    (element : values[i]? = some v) :
    (writeIndexed t index values).get? (indexText (index + i)) = some (.writable v) := by
  induction values generalizing t index i with
  | nil => cases element
  | cons first values ih =>
      rw [writeIndexed_cons]
      cases i with
      | zero =>
          -- written first, and kept by the later indices
          cases element
          have before : index < index + 1 := Nat.lt_succ_self index
          show (writeIndexed _ (index + 1) values).get? (indexText index) = _
          rw [get?_writeIndexed_of_lt before, Table.get?_insert, if_pos rfl]
      | succ i =>
          have rest := ih (t.insert (indexText index) (.writable first)) (index + 1) element
          rw [Nat.add_assoc, Nat.add_comm 1] at rest
          exact rest

end Eval

/-! ## Reading an object with indices -/

/-- A value of its own is read off an object without looking further. -/
theorem Runner.getProperty_own (r : Runner) {m : Machine} {o : ObjectId} {key : String} {v : Value}
    {writable : Bool} (own : (m.object o).own? key = some (.data v writable)) :
    r.getProperty (.object o) key m = .value v m := by
  have first := m.property_eq o key
  rw [own] at first
  show r.readProperty o key (.object o) m = .value v m
  rw [r.readProperty_eq, first]
  rfl

/-- The object is spread to the values, without a change of the machine, now and as long as it is as
it is now.  It is spread so whatever runs the scripts: none is run. -/
def Machine.SpreadsTo (m : Machine) (o : ObjectId) (values : List Value) : Prop :=
  ∀ (r : Runner) (n : Machine), n.object o = m.object o →
    r.arrayLike (.object o) n = .value values n

section

variable {values : List Value} (few : values.length < 2 ^ 53)
include few

theorem Machine.spreadsTo_of_indexed {m : Machine} {o prototype : ObjectId}
    (made : m.object o = Eval.indexed prototype values) : m.SpreadsTo o values := by
  intro r n same
  have own (key : String) : (n.object o).own? key =
      (Eval.writeIndexed .empty 0 values).get? key := by
    rw [same, made]
    rfl
  apply Runner.arrayLike_of_reads few
  · apply r.getProperty_own
    rw [own, Eval.get?_writeIndexed_length, Nat.zero_add]
  · intro i v element
    have entry := Eval.get?_writeIndexed .empty 0 element
    rw [Nat.zero_add] at entry
    apply r.getProperty_own
    rw [own, entry]

/-- The new object is spread to the values it was made of. -/
theorem Eval.allocate_indexed (prototype : ObjectId) (m : Machine) :
    ∃ o n, Eval.createIndexed prototype values m = .value o n ∧ n.SpreadsTo o values ∧
      n.scopes = m.scopes := by
  have made : Machine.object { m with objects := m.objects.push (indexed prototype values) }
      ⟨m.objects.size⟩ = indexed prototype values := by
    rw [Machine.object_push, if_pos rfl]
  exact ⟨_, _, rfl, Machine.spreadsTo_of_indexed few made, rfl⟩

end

theorem Machine.SpreadsTo.of_object {m n : Machine} {o : ObjectId} {values : List Value}
    (h : m.SpreadsTo o values) (same : n.object o = m.object o) : n.SpreadsTo o values :=
  fun r n' same' => h r n' (same'.trans same)

/-! ## Calls -/

/-- A scope that is there has a name once it was declared. -/
theorem Machine.get?_declared {m : Machine} {s : ScopeId} (live : s.index < m.scopes.size)
    (name : String) (b : Binding) :
    ((m.modifyScope s fun scope =>
      { scope with bindings := scope.bindings.insert name b }).scope s).bindings.get? name =
        some b := by
  rw [scope_modify, if_pos ⟨rfl, live⟩]
  exact (Table.get?_insert _ _ _ _).trans (if_pos rfl)

namespace Runner

variable {values : List Value} {c : Closure}

/-- A call has a scope of its own. -/
theorem openCall_scope {receiver : Value} {m n : Machine} {s : ScopeId}
    (opened : openCall c receiver values m = .value s n) : s.index < n.scopes.size := by
  rw [openCall] at opened
  split at opened
  · cases opened
    simp
  · cases opened
    simp [Machine.modifyScope]

/-- What a call makes of its arguments before its parameters. -/
theorem openCall_arguments (few : values.length < 2 ^ 53) (notArrow : c.isArrow = false)
    (receiver : Value) (m : Machine) :
    ∃ s o n, openCall c receiver values m = .value s n ∧
      (n.scope s).bindings.get? "arguments" = some ⟨.object o, true⟩ ∧ n.SpreadsTo o values := by
  let s : ScopeId := ⟨m.scopes.size⟩
  let opened : Machine := { m with scopes := m.scopes.push ⟨some c.scope, receiver, .empty⟩ }
  obtain ⟨o, made, created, spreads, scopes⟩ :=
    Eval.allocate_indexed few .objectPrototype opened
  have live : s.index < made.scopes.size := by
    rw [scopes]
    simp [opened, s]
  have calls : openCall c receiver values m = (do
      let list ← Eval.createIndexed .objectPrototype values
      Eval.declare s "arguments" (.object list) true
      return s) opened := by
    rw [openCall, notArrow]
    rfl
  rw [calls, Eval.bind_of_value created]
  exact ⟨s, o, _, rfl, made.get?_declared live "arguments" ⟨.object o, true⟩, spreads.of_object rfl⟩

theorem bindParameters_append (r : Runner) (s : ScopeId) (before after : List Pattern)
    (arguments : List Value) :
    r.bindParameters s (before ++ after) arguments = (do
      r.bindParameters s before arguments
      r.bindParameters s after (arguments.drop before.length)) := by
  induction before generalizing arguments with
  | nil => rfl
  | cons param before ih =>
      simp only [List.cons_append, bindParameters, ih, bind_assoc, List.length_cons,
        List.drop_tail]

/-- Binding parameters takes no scope away. -/
theorem bindParameters_scopes (settings : Settings) (fuel : Nat) {s : ScopeId}
    {params : List Pattern} {arguments : List Value} {m n : Machine}
    (bound : (settings.runner fuel).bindParameters s params arguments m = .value () n) :
    m.scopes.size ≤ n.scopes.size := by
  have runs := Discipline.scopes_lawful.runner (Discipline.scopes_agree settings)
    (Nat.le_refl fuel) fun _ => rfl
  have keeps : Discipline.scopes.Keeps ⟨some s, none⟩ m
      ((settings.runner fuel).bindParameters s params arguments)
      ((settings.runner fuel).bindParameters s params arguments) fun _ _ => True :=
    runs.bindParameters ⟨allParams_anything params, trivial⟩ trivial rfl (fun _ _ => trivial)
      fun refines => absurd refines Discipline.anything_not_supported
  obtain ⟨m', kept, ends⟩ := keeps.outcome
  have left : n = m' := (congrArg Outcome.machine bound).symm.trans ends
  exact left ▸ kept.size

/-- A rest parameter is bound to an array of the arguments that are left. -/
theorem bindParameter_rest (few : values.length < 2 ^ 53) (r : Runner) {m : Machine} {s : ScopeId}
    (live : s.index < m.scopes.size) (name : String) :
    ∃ o n, r.bindParameter s values (.rest (.ident name)) m = .value () n ∧
      (n.scope s).bindings.get? name = some ⟨.object o, true⟩ ∧ n.SpreadsTo o values := by
  obtain ⟨o, made, created, spreads, scopes⟩ := Eval.allocate_indexed few .arrayPrototype m
  have live' : s.index < made.scopes.size := by
    rw [scopes]
    exact live
  refine ⟨o, _, ?_, made.get?_declared live' name ⟨.object o, true⟩, spreads.of_object rfl⟩
  show (Eval.createIndexed .arrayPrototype values >>= fun o =>
    Eval.declare s name (.object o) true) m = _
  rw [Eval.bind_of_value created]
  rfl

/-- The spread of a name that the scope itself binds to an object. -/
theorem evalArgument_spread (settings : Settings) (fuel : Nat) {m : Machine} {s : ScopeId}
    {name : String} {o : ObjectId}
    (bound : (m.scope s).bindings.get? name = some ⟨.object o, true⟩)
    (spreads : m.SpreadsTo o values) :
    (settings.runner (fuel + 1)).evalArgument s (.spread (.ident name)) m = .value values m := by
  have nearest := m.nearest_eq s name
  rw [bound] at nearest
  have found : (settings.runner (fuel + 1)).eval s (.ident name) m = .value (.object o) m := by
    show Eval.lookup s name m = .value (.object o) m
    have searched : Eval.nearest? s name m = .value (some (s, ⟨.object o, true⟩)) m := by
      show Eval.search (fun m => m.nearest s name) m = _
      simp only [Eval.search, nearest]
    rw [Eval.lookup, Eval.bind_of_value searched]
    rfl
  rw [evalArgument, Eval.bind_of_value found]
  exact spreads _ m rfl

end Runner

/-- What was made of a list is spread to that list again, in every later machine in which the object
itself is unchanged: an array, the `arguments` of a call and, for the arguments it takes, a rest
parameter. -/
theorem spreads_back {values : List Value} (few : values.length < 2 ^ 53) :
    (∀ m, ∃ o n, Eval.createArray values m = .value o n ∧ n.SpreadsTo o values) ∧
    (∀ c receiver m, c.isArrow = false → ∃ s o n,
      Runner.openCall c receiver values m = .value s n ∧
      (n.scope s).bindings.get? "arguments" = some ⟨.object o, true⟩ ∧ n.SpreadsTo o values ∧
      ∀ r : Runner, r.invoke c receiver values m = (do
        r.bindParameters s c.code.params values
        r.runBody s c.code.body) n) ∧
    ∀ settings fuel c receiver m s n before name after n₁,
      c.code.params = before ++ .rest (.ident name) :: after →
      Runner.openCall c receiver values m = .value s n →
      (Settings.runner settings fuel).bindParameters s before values n = .value () n₁ →
      ∃ o n₂, (n₂.scope s).bindings.get? name = some ⟨.object o, true⟩ ∧
        n₂.SpreadsTo o (values.drop before.length) ∧
        (∀ fuel', (Settings.runner settings (fuel' + 1)).evalArgument s (.spread (.ident name)) n₂ =
          .value (values.drop before.length) n₂) ∧
        (Settings.runner settings fuel).invoke c receiver values m = (do
          (Settings.runner settings fuel).bindParameters s after (values.drop (before.length + 1))
          (Settings.runner settings fuel).runBody s c.code.body) n₂ := by
  refine ⟨?_, ?_, ?_⟩
  · intro m
    obtain ⟨o, n, created, spreads, _⟩ := Eval.allocate_indexed few .arrayPrototype m
    exact ⟨o, n, created, spreads⟩
  · intro c receiver m notArrow
    obtain ⟨s, o, n, opened, bound, spreads⟩ :=
      Runner.openCall_arguments few notArrow receiver m
    refine ⟨s, o, n, opened, bound, spreads, ?_⟩
    intro r
    rw [Runner.invoke, Eval.bind_of_value opened]
  · intro settings fuel c receiver m s n before name after n₁ params opened first
    -- parameters before it may run script, but the scope of the call stays
    have live : s.index < n₁.scopes.size :=
      Nat.lt_of_lt_of_le (Runner.openCall_scope opened)
        (Runner.bindParameters_scopes settings fuel first)
    have left : (values.drop before.length).length < 2 ^ 53 := by
      rw [List.length_drop]
      omega
    obtain ⟨o, n₂, rest, bound, spreads⟩ :=
      Runner.bindParameter_rest left (settings.runner fuel) live name
    refine ⟨o, n₂, bound, spreads, ?_, ?_⟩
    · intro fuel'
      exact Runner.evalArgument_spread settings fuel' bound spreads
    · rw [Runner.invoke, Eval.bind_of_value opened, params, Runner.bindParameters_append,
        bind_assoc, Eval.bind_of_value first, Runner.bindParameters, bind_assoc,
        Eval.bind_of_value rest, List.tail_drop]

/-- Getters for `0` and `length` on the prototypes of objects and of arrays.  They are no functions,
so running one would be a fault. -/
def trappedMachine : Machine :=
  { Machine.empty with
    objects := #[⟨none, traps, .ordinary⟩, .ofPrototype none, .ofPrototype none,
      ⟨some .objectPrototype, traps, .ordinary⟩] }
where
  traps : Table Property :=
    .ofList [("0", .accessor .null .undefined), ("length", .accessor .null .undefined)]

/-- `function (first, ...others) {}` -/
def restClosure : Closure :=
  ⟨none, ⟨none, [.ident "first", .rest (.ident "others")], .block [], false, false, none⟩, ⟨0⟩,
    false⟩

/-- The getters on the prototypes are not met: an array of two values, the `arguments` of a call
with them and its rest parameter spread to what they were made of. -/
theorem spreads_back_trapped :
    [Value.null, .bool true].length < 2 ^ 53 ∧
    (∃ o n, Eval.createArray [.null, .bool true] trappedMachine = .value o n ∧
      ∀ r : Runner, r.arrayLike (.object o) n = .value [.null, .bool true] n) ∧
    restClosure.isArrow = false ∧
    (∃ s o n,
      Runner.openCall restClosure .undefined [.null, .bool true] trappedMachine = .value s n ∧
      (n.scope s).bindings.get? "arguments" = some ⟨.object o, true⟩ ∧
      ∀ r : Runner, r.arrayLike (.object o) n = .value [.null, .bool true] n) ∧
    ∃ s n n₁ n₂,
      Runner.openCall restClosure .undefined [.null, .bool true] trappedMachine = .value s n ∧
      (Settings.standard.runner 4).bindParameters s [.ident "first"] [.null, .bool true] n =
        .value () n₁ ∧
      (Settings.standard.runner 1).evalArgument s (.spread (.ident "others")) n₂ =
        .value [.bool true] n₂ := by
  have few : [Value.null, .bool true].length < 2 ^ 53 := by decide
  obtain ⟨arrays, calls, rests⟩ := spreads_back few
  obtain ⟨o, n, created, spreads⟩ := arrays trappedMachine
  obtain ⟨s', o', n', opened, bound, spreads', _⟩ :=
    calls restClosure .undefined trappedMachine rfl
  obtain ⟨_, n₂, _, _, spread, _⟩ := rests .standard 4 restClosure .undefined trappedMachine _ _
    [.ident "first"] "others" [] _ rfl rfl rfl
  exact ⟨few, ⟨o, n, created, fun r => spreads r n rfl⟩, rfl,
    ⟨s', o', n', opened, bound, fun r => spreads' r n' rfl⟩, _, _, _, n₂, rfl, rfl, spread 0⟩

end ScriptTree
