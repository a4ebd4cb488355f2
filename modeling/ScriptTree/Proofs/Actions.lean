import ScriptTree.Proofs.Discipline

/-!
# Primitive actions keep a discipline

One rule for each action that looks at a machine or changes it, and for the ways of making objects.
The changes are the laws of the discipline; the rest is composed from them.
-/

namespace ScriptTree

namespace Discipline.Lawful

variable {D : Discipline} (law : D.Lawful) {fp : Footprint} {w : D.World} {α : Type}
include law

/-! ## Looking -/

theorem inspect {Q : D.World → α → Prop} {f : Machine → α}
    (hf : f (D.double w) = f (D.machine w)) (h : Q w (f (D.machine w))) :
    D.Keeps fp w (Eval.inspect f) (Eval.inspect f) Q := by
  refine .value w (f (D.machine w)) (law.refl fp w) rfl ?_ h
  rw [Eval.inspect, hf]

theorem search {Q : D.World → Option α → Prop} {f : Machine → Search α}
    (hf : f (D.double w) = f (D.machine w)) (hend : D.mayExhaust ∨ f (D.machine w) ≠ .endless)
    (hfound : ∀ a, f (D.machine w) = .found a → Q w (some a)) (habsent : Q w none) :
    D.Keeps fp w (Eval.search f) (Eval.search f) Q := by
  cases hs : f (D.machine w) with
  | found a =>
      refine .value w (some a) (law.refl fp w) ?_ ?_ (hfound a hs)
      · rw [Eval.search, hs]
      · rw [Eval.search, hf, hs]
  | absent =>
      refine .value w none (law.refl fp w) ?_ ?_ habsent
      · rw [Eval.search, hs]
      · rw [Eval.search, hf, hs]
  | endless =>
      refine .exhausted w (law.refl fp w) ?_ ?_ fun _ => ?_
      · rw [Eval.search, hs]
      · exact hend.resolve_right fun h => h hs
      · rw [Eval.search, hf, hs]

theorem object (o : ObjectId) :
    D.Keeps fp w (Eval.object o) (Eval.object o) fun w' found =>
      found = (D.machine w').object o :=
  law.inspect rfl rfl

theorem property? (o : ObjectId) (key : String) :
    D.Keeps fp w (Eval.property? o key) (Eval.property? o key) fun w' found =>
      ∀ p, found = some p → D.shown w' p := by
  have same : (D.double w).objects = (D.machine w).objects := rfl
  refine law.search (Machine.property_congr same o key)
    (law.prototypes_end.imp_right fun ends => ends w o key) ?_ ?_
  · intro p hp q hq
    cases hq
    obtain ⟨holder, hown⟩ := Machine.property_found hp
    exact law.own_shown hown
  · intro p hp
    cases hp

theorem describe (v : Value) :
    D.Keeps fp w (Eval.describe v) (Eval.describe v) fun _ _ => True :=
  law.inspect rfl trivial

theorem isCallable (v : Value) :
    D.Keeps fp w (Eval.isCallable v) (Eval.isCallable v) fun w' answer =>
      answer = (D.machine w').isCallable v :=
  law.inspect rfl rfl

theorem receiver {s : ScopeId} (hs : D.scope w s) :
    D.Keeps fp w (Eval.receiver s) (Eval.receiver s) D.value :=
  law.inspect rfl (law.receiver_ok hs)

theorem nearest? (s : ScopeId) (name : String) :
    D.Keeps fp w (Eval.nearest? s name) (Eval.nearest? s name) fun w' found =>
      ∀ owner b, found = some (owner, b) →
        ((D.machine w').scope owner).bindings.get? name = some b := by
  have same : (D.double w).scopes = (D.machine w).scopes := rfl
  refine law.search (Machine.nearest_congr same s name)
    (law.scopes_end.imp_right fun ends => ends w s name) ?_ ?_
  · rintro ⟨owner, b⟩ hfound _ _ h
    cases h
    exact Machine.nearest_found hfound
  · intro owner b h
    cases h

theorem isBound (s : ScopeId) (name : String) :
    D.Keeps fp w (Eval.isBound s name) (Eval.isBound s name) fun _ _ => True :=
  law.bind (law.nearest? s name) fun _ _ _ _ => law.pure trivial

theorem lookup (s : ScopeId) (name : String) :
    D.Keeps fp w (Eval.lookup s name) (Eval.lookup s name) D.value := by
  refine law.bind (law.nearest? s name) fun found w' _ hfound => ?_
  match found with
  | some (owner, b) => exact law.pure (law.binding_ok (hfound owner b rfl))
  | none => exact law.pure (law.primitive_ok _ _)

theorem trace :
    D.Keeps fp w Eval.trace Eval.trace fun w' frames => frames = (D.machine w').stack :=
  law.inspect rfl rfl

/-! ## Faults with a trace -/

theorem internalFault {Q : D.World → α → Prop} {message : String}
    (h : D.fault w (.internal message (D.machine w).stack)) :
    D.Keeps fp w (Eval.internalFault message) (Eval.internalFault message) Q :=
  .fault w _ (law.refl fp w) rfl rfl h

/-- A fault of a node is met only when trees are not asked to be supported. -/
theorem internalFault_of {Q : D.World → α → Prop} {message : String}
    (h : D.checks.Refines .supported → False) :
    D.Keeps fp w (Eval.internalFault message) (Eval.internalFault message) Q :=
  law.internalFault ((law.fault_internal.resolve_right h) w message)

theorem unsupported {Q : D.World → α → Prop} {what : String}
    (h : D.checks.Refines .supported → False) :
    D.Keeps fp w (Eval.unsupported what) (Eval.unsupported what) Q :=
  law.internalFault_of h

theorem throwValue {Q : D.World → α → Prop} {v : Value} (hv : D.value w v) :
    D.Keeps fp w (Eval.throwValue v) (Eval.throwValue v) Q :=
  .fault w _ (law.refl fp w) rfl rfl (law.fault_thrown _ hv)

theorem typeError {Q : D.World → α → Prop} (message : String) :
    D.Keeps fp w (Eval.fail (.typeError message)) (Eval.fail (.typeError message)) Q :=
  law.fail (law.fault_typeError w message)

theorem referenceError {Q : D.World → α → Prop} (message : String) :
    D.Keeps fp w (Eval.fail (.referenceError message)) (Eval.fail (.referenceError message)) Q :=
  law.fail (law.fault_referenceError w message)

/-! ## Objects -/

theorem allocate {o : Object} (ho : D.object w o) :
    D.Keeps fp w (Eval.allocate o) (Eval.allocate o) fun w' made =>
      made = ⟨(D.machine w).objects.size⟩ ∧ D.value w' (.object made) ∧
        (∀ c, o.kind = .function c → D.slot w' (.object made)) ∧
        (o.kind = .ordinary → D.target w' made) := by
  obtain ⟨w', follows, hv, hslot, htarget⟩ := law.allocates ho
  exact law.widen (.change ⟨w', follows, rfl, hv, hslot, htarget⟩ rfl rfl)

theorem define {o : ObjectId} {p : Property} (key : String) (ho : D.value w (.object o))
    (hp : D.property w p) :
    D.Keeps fp w (Eval.define o key p) (Eval.define o key p) fun _ _ => True := by
  obtain ⟨w', follows⟩ := law.defines key ho hp
  exact law.widen (.change ⟨w', follows, trivial⟩ rfl rfl)

theorem erase {o : ObjectId} (key : String) (ho : D.value w (.object o)) :
    D.Keeps fp w (Eval.erase o key) (Eval.erase o key) fun _ _ => True := by
  obtain ⟨w', follows⟩ := law.erases key ho
  exact law.widen (.change ⟨w', follows, trivial⟩ rfl rfl)

/-- Only the object under construction can be boxed. -/
theorem box {o : ObjectId} {p : Primitive} (ho : D.target w o) (hp : p.isNullish = false)
    (hfp : fp.target = some o) :
    D.Keeps fp w (Eval.box o p) (Eval.box o p) fun _ _ => True := by
  obtain ⟨w', follows⟩ := law.boxes ho hp
  obtain ⟨s, t⟩ := fp
  cases hfp
  have keeps : D.Keeps ⟨none, some o⟩ w (Eval.box o p) (Eval.box o p) fun _ _ => True :=
    .change ⟨w', follows, trivial⟩ rfl rfl
  exact keeps.reach fun _ h => law.widenScope h

/-! ## Scopes -/

theorem openScope {parent : ScopeId} {v : Value} (hs : D.scope w parent) (hv : D.value w v) :
    D.Keeps fp w (Eval.openScope (some parent) v) (Eval.openScope (some parent) v)
      fun w' s => s = ⟨(D.machine w).scopes.size⟩ ∧ D.scope w' s := by
  obtain ⟨w', follows, hs'⟩ := law.opensScope hs hv
  exact law.widen (.change ⟨w', follows, rfl, hs'⟩ rfl rfl)

theorem childScope {s : ScopeId} (hs : D.scope w s) :
    D.Keeps fp w (Eval.childScope s) (Eval.childScope s)
      fun w' inner => inner = ⟨(D.machine w).scopes.size⟩ ∧ D.scope w' inner ∧
        ∀ names, D.ready w s names → D.ready w' inner names := by
  obtain ⟨w', follows, hs'⟩ := law.opensScope hs (law.receiver_ok hs)
  have seen (names : List String) (h : D.ready w s names) :
      D.ready w' ⟨(D.machine w).scopes.size⟩ names :=
    fun name hn => law.sees_opened (h name hn) follows
  exact law.widen (.change ⟨w', follows, rfl, hs', seen⟩ rfl rfl)

/-- What runs in a scope of its own may bind names there and nowhere else.  It sees all names that
are seen around it. -/
theorem inChild {β : Type} {Q : D.World → β → Prop} {s : ScopeId} {f g : ScopeId → Eval β}
    (hs : D.scope w s)
    (h : ∀ inner w', D.reaches ⟨some inner, fp.target⟩ w w' → D.scope w' inner →
      (∀ names, D.ready w s names → D.ready w' inner names) →
      D.Keeps ⟨some inner, fp.target⟩ w' (f inner) (g inner) Q) :
    D.Keeps fp w (Eval.childScope s >>= f) (Eval.childScope s >>= g) Q := by
  -- the scope comes to be inside the action, so outside it is no footprint
  refine law.forgetScope (Nat.le_refl _) (law.bind (law.childScope hs) ?_)
  rintro inner w' hw ⟨rfl, hi, seen⟩
  exact h _ w' hw hi seen

/-- A name that has been declared is seen. -/
theorem declare_sees {s : ScopeId} {v : Value} (name : String) (isMutable : Bool)
    (hs : D.scope w s) (hv : D.value w v) (hfp : fp.scope = some s) :
    D.Keeps fp w (Eval.declare s name v isMutable) (Eval.declare s name v isMutable)
      fun w' _ => D.sees w' s name := by
  obtain ⟨w', follows⟩ := law.declares name isMutable hs hv
  obtain ⟨s', t⟩ := fp
  cases hfp
  have keeps : D.Keeps ⟨some s, none⟩ w (Eval.declare s name v isMutable)
      (Eval.declare s name v isMutable) fun w' _ => D.sees w' s name :=
    .change ⟨w', follows, law.sees_declared hs follows⟩ rfl rfl
  exact keeps.reach fun _ h => law.widenTarget h

theorem declare {s : ScopeId} {v : Value} (name : String) (isMutable : Bool) (hs : D.scope w s)
    (hv : D.value w v) (hfp : fp.scope = some s) :
    D.Keeps fp w (Eval.declare s name v isMutable) (Eval.declare s name v isMutable)
      fun _ _ => True :=
  (law.declare_sees name isMutable hs hv hfp).post fun _ _ _ _ => trivial

theorem declareIfAbsent {s : ScopeId} (name : String) (hs : D.scope w s)
    (hfp : fp.scope = some s) :
    D.Keeps fp w (Eval.declareIfAbsent s name) (Eval.declareIfAbsent s name)
      fun w' _ => D.sees w' s name := by
  have same : (D.double w).scope s = (D.machine w).scope s := rfl
  -- the action looks at the scope and acts at once, so each case is an equation of actions
  cases hb : ((D.machine w).scope s).bindings.contains name with
  | true =>
      refine .value w () (law.refl fp w) ?_ ?_ (law.sees_here hb)
      · rw [Eval.declareIfAbsent, hb, if_pos rfl]
      · rw [Eval.declareIfAbsent, same, hb, if_pos rfl]
  | false =>
      have hm : Eval.declareIfAbsent s name (D.machine w) =
          Eval.declare s name .undefined true (D.machine w) := by
        rw [Eval.declareIfAbsent, hb, if_neg Bool.false_ne_true]
      have hd : Eval.declareIfAbsent s name (D.double w) =
          Eval.declare s name .undefined true (D.double w) := by
        rw [Eval.declareIfAbsent, same, hb, if_neg Bool.false_ne_true]
      exact (law.declare_sees name true hs (law.primitive_ok w _) hfp).congr hm hd

/-- Writing a binding that is there. -/
theorem writeBinding {v : Value} (strict : Bool) (s : ScopeId) (name : String)
    (hv : D.value w v) :
    D.Keeps fp w (Eval.writeBinding strict s name v) (Eval.writeBinding strict s name v)
      fun _ _ => True := by
  refine law.bind (law.nearest? s name) fun found w' hw hfound => ?_
  match found with
  | none => exact law.referenceError _
  | some (owner, b) =>
      refine .ite (fun hb => ?_) fun _ => .ite (fun _ => law.typeError _) fun _ => law.pure trivial
      obtain ⟨w'', follows⟩ := law.assigns (hfound owner b rfl) hb (law.value_mono hw hv)
      exact law.widen (.change ⟨w'', follows, trivial⟩ rfl rfl)

/-- All names that have been declared are seen. -/
theorem declareAll {s : ScopeId} (names : List String) (hs : D.scope w s)
    (hfp : fp.scope = some s) :
    D.Keeps fp w (Eval.declareAll s names) (Eval.declareAll s names)
      fun w' _ => D.ready w' s names := by
  induction names generalizing w with
  | nil =>
      refine law.pure fun name hn => ?_
      cases hn
  | cons name rest ih =>
      refine law.bind (law.declareIfAbsent name hs hfp) fun _ w₁ h₁ seen => ?_
      refine (ih (law.scope_mono h₁ hs)).post fun w₂ _ h₂ ready other hn => ?_
      rcases List.mem_cons.mp hn with rfl | hn
      · exact law.sees_mono h₂ seen
      · exact ready other hn

/-! ## The clock and the limits -/

theorem startClock : D.Keeps fp w Eval.startClock Eval.startClock fun _ _ => True := by
  refine law.widen ?_
  by_cases hempty : (D.machine w).stack.isEmpty = true
  · obtain ⟨w', follows⟩ := law.setsClock w
      { (D.machine w).clock with start := some (D.machine w).clock.readings }
    refine .change (a := ()) ⟨w', follows, trivial⟩ ?_ ?_
    · rw [Eval.startClock, if_pos hempty]
    · exact if_pos hempty
  · refine .value w () (law.refl _ w) ?_ ?_ trivial
    · rw [Eval.startClock, if_neg hempty]
    · exact if_neg hempty

theorem checkTimeout (settings : Settings)
    (timeout : ∀ w limit elapsed, D.fault w (.timeout limit elapsed)) :
    D.Keeps fp w (Eval.checkTimeout settings) (Eval.checkTimeout settings) fun _ _ => True := by
  refine law.widen ?_
  have same : (D.double w).clock = (D.machine w).clock := rfl
  cases hstart : (D.machine w).clock.start with
  | none =>
      refine .value w () (law.refl _ w) ?_ ?_ trivial
      · rw [Eval.checkTimeout, hstart]
      · rw [Eval.checkTimeout, same, hstart]
  | some start =>
      by_cases hzero : settings.timeoutMs = 0
      · refine .value w () (law.refl _ w) ?_ ?_ trivial
        · simp only [Eval.checkTimeout, hstart, if_pos hzero]
        · simp only [Eval.checkTimeout, same, hstart, if_pos hzero]
      -- from here on the clock has been read, whether or not the time is over
      obtain ⟨w', follows⟩ := law.setsClock w
        { (D.machine w).clock with readings := (D.machine w).clock.readings + 1 }
      have read : D.double w' = { D.double w with clock :=
          { (D.machine w).clock with readings := (D.machine w).clock.readings + 1 } } := by
        simp only [double, follows.machine, follows.console]
      obtain ⟨elapsed, passed⟩ : ∃ elapsed,
          settings.clock ((D.machine w).clock.readings + 1) - settings.clock start = elapsed :=
        ⟨_, rfl⟩
      by_cases late : settings.timeoutMs < elapsed
      · refine .fault w' (.timeout settings.timeoutMs elapsed) follows.reaches ?_ ?_ (timeout ..)
        · simp only [Eval.checkTimeout, hstart, if_neg hzero, passed, if_pos late, follows.machine]
        · simp only [Eval.checkTimeout, same, hstart, if_neg hzero, passed, if_pos late, read]
      · refine .value w' () follows.reaches ?_ ?_ trivial
        · simp only [Eval.checkTimeout, hstart, if_neg hzero, passed, if_neg late, follows.machine]
        · simp only [Eval.checkTimeout, same, hstart, if_neg hzero, passed, if_neg late, read]

theorem checkDepth (settings : Settings)
    (mayEnter : (D.machine w).stack.length < settings.maxCallDepth → D.mayEnter w) :
    D.Keeps fp w (Eval.checkDepth settings) (Eval.checkDepth settings)
      fun w' _ => D.mayEnter w' := by
  by_cases hdepth : settings.maxCallDepth ≤ (D.machine w).stack.length
  · refine .fault w .callDepth (law.refl _ w) ?_ ?_ (law.fault_rangeError w _)
    · rw [Eval.checkDepth, if_pos hdepth]
    · exact if_pos hdepth
  · refine .value w () (law.refl _ w) ?_ ?_ (mayEnter (Nat.lt_of_not_le hdepth))
    · rw [Eval.checkDepth, if_neg hdepth]
    · exact if_neg hdepth

/-- Settings agree with themselves as soon as the world can follow what they decide. -/
theorem agree (settings : Settings)
    (timeout : ∀ w limit elapsed, D.fault w (.timeout limit elapsed))
    (mayEnter : ∀ w, (D.machine w).stack.length < settings.maxCallDepth → D.mayEnter w)
    (prints : ∀ w line, ∃ w', D.reaches .nothing w w' ∧
      D.machine w' = { D.machine w with console := (D.machine w).console.push line } ∧
      D.console w' = (D.console w).push line) :
    D.Agree settings settings where
  checkTimeout w := law.checkTimeout settings timeout
  checkDepth w := law.checkDepth settings (mayEnter w)
  print w level text := by
    unfold Eval.print
    cases settings.console with
    | discard => exact .value w () (law.refl _ w) rfl rfl trivial
    | record =>
        obtain ⟨w', hreach, hmachine, hconsole⟩ := prints w ⟨level, text⟩
        refine .value w' () hreach ?_ ?_ trivial
        · simp only [hmachine]
        · simp only [double, hmachine, hconsole]

/-! ## Making objects -/

theorem createFrom {prototype : ObjectId} (hp : D.value w (.object prototype)) :
    D.Keeps fp w (Eval.createFrom prototype) (Eval.createFrom prototype) fun w' o =>
      o = ⟨(D.machine w).objects.size⟩ ∧ D.value w' (.object o) ∧ D.target w' o := by
  have ho : D.object w (.ofPrototype (some prototype)) := by
    refine ⟨?_, ?_, trivial, .empty⟩
    · intro p h
      cases h
      exact hp
    · intro entry h
      cases h
  exact (law.allocate ho).post fun _ _ _ ⟨he, hv, _, ht⟩ => ⟨he, hv, ht rfl⟩

/-- A plain object can be under construction. -/
theorem createPlain :
    D.Keeps fp w Eval.createObject Eval.createObject fun w' o => D.target w' o :=
  (law.createFrom (law.intrinsic_ok w _ (by decide))).post fun _ _ _ h => h.2.2

theorem createObject :
    D.Keeps fp w Eval.createObject Eval.createObject fun w' o => D.value w' (.object o) :=
  law.createPlain.post fun _ _ _ => law.target_value

/-- An object of the given entries that inherits from an object every machine has. -/
theorem allocate_ofList {prototype : ObjectId} {entries : List (String × Property)}
    (kind : ObjectKind) (hp : prototype.index < 10)
    (he : ∀ entry ∈ entries, D.property w entry.2) (hk : D.kind w (some prototype) kind) :
    D.Keeps fp w (Eval.allocate ⟨some prototype, .ofList entries, kind⟩)
      (Eval.allocate ⟨some prototype, .ofList entries, kind⟩) fun w' o =>
        D.value w' (.object o) ∧ ∀ c, kind = .function c → D.slot w' (.object o) := by
  have ho : D.object w ⟨some prototype, .ofList entries, kind⟩ := by
    refine ⟨?_, fun entry h => he entry (Table.mem_ofList h), hk, .ofList entries⟩
    intro p h
    cases h
    exact law.intrinsic_ok w _ hp
  exact (law.allocate ho).post fun _ _ _ ⟨_, hv, hslot, _⟩ => ⟨hv, hslot⟩

theorem indexedEntries_ok {values : List Value} (index : Nat) (hv : ∀ v ∈ values, D.value w v) :
    ∀ entry ∈ Eval.indexedEntries index values, D.property w entry.2 := by
  induction values generalizing index with
  | nil =>
      intro entry h
      rw [Eval.indexedEntries, List.mem_singleton] at h
      subst h
      exact law.primitive_ok w _
  | cons v rest ih =>
      intro entry h
      rw [Eval.indexedEntries, List.mem_cons] at h
      rcases h with rfl | h
      · exact hv v List.mem_cons_self
      · exact ih (index + 1) (fun v h => hv v (List.mem_cons_of_mem _ h)) entry h

theorem createIndexed {prototype : ObjectId} {values : List Value} (hp : prototype.index < 10)
    (hv : ∀ v ∈ values, D.value w v) :
    D.Keeps fp w (Eval.createIndexed prototype values) (Eval.createIndexed prototype values)
      fun w' o => D.value w' (.object o) :=
  (law.allocate_ofList .ordinary hp (law.indexedEntries_ok 0 hv) trivial).post fun _ _ _ h => h.1

theorem createArray {values : List Value} (hv : ∀ v ∈ values, D.value w v) :
    D.Keeps fp w (Eval.createArray values) (Eval.createArray values)
      fun w' o => D.value w' (.object o) :=
  law.createIndexed (by decide) hv

theorem createFunction {callable : Callable} (hc : D.callable w callable) :
    D.Keeps fp w (Eval.createFunction callable) (Eval.createFunction callable)
      fun w' o => D.slot w' (.object o) := by
  have hname : ∀ entry ∈ [("name", Property.readOnly (.string (callable.name?.getD "")))],
      D.property w entry.2 := by
    intro entry h
    rw [List.mem_singleton] at h
    subst h
    exact law.primitive_ok w _
  refine (law.allocate_ofList (.function callable) (by decide) hname ⟨rfl, hc⟩).post ?_
  exact fun _ _ _ made => made.2 callable rfl

theorem joinPrototype {function prototype : ObjectId} (hf : D.value w (.object function))
    (hp : D.value w (.object prototype)) :
    D.Keeps fp w (Eval.joinPrototype function prototype) (Eval.joinPrototype function prototype)
      fun _ _ => True :=
  law.bind (law.define _ hp hf) fun _ _ hw _ =>
    law.define _ (law.value_mono hw hf) (law.value_mono hw hp)

theorem createConstructor {callable : Callable} (hc : D.callable w callable) :
    D.Keeps fp w (Eval.createConstructor callable) (Eval.createConstructor callable)
      fun w' o => D.slot w' (.object o) := by
  refine law.bind (law.createFunction hc) fun function w₁ _ hf => ?_
  refine law.bind law.createObject fun prototype w₂ h₂ hp => ?_
  have hf₂ := law.slot_mono h₂ hf
  exact law.bind (law.joinPrototype (law.slot_value hf₂) hp) fun _ _ h₃ _ =>
    law.pure (law.slot_mono h₃ hf₂)

theorem toObject {v : Value} (hv : D.value w v) :
    D.Keeps fp w (Eval.toObject v) (Eval.toObject v) fun w' o => D.value w' (.object o) := by
  have boxOf (prototype : ObjectId) (p : Primitive) (hi : prototype.index < 10)
      (hp : p.isNullish = false) :
      D.Keeps fp w (Eval.toObject.boxOf prototype p) (Eval.toObject.boxOf prototype p)
        fun w' o => D.value w' (.object o) := by
    have none : ∀ entry ∈ ([] : List (String × Property)), D.property w entry.2 := by
      intro entry h
      cases h
    exact (law.allocate_ofList (.boxed p) hi none hp).post fun _ _ _ h => h.1
  match v with
  | .object o => exact law.pure hv
  | .undefined | .null => exact law.typeError _
  | .bool b => exact boxOf _ _ (by decide) rfl
  | .number x => exact boxOf _ _ (by decide) rfl
  | .string s => exact boxOf _ _ (by decide) rfl

theorem createError (kind : ErrorKind) (message : String) :
    D.Keeps fp w (Eval.createError kind message) (Eval.createError kind message)
      fun w' o => D.value w' (.object o) := by
  refine law.bind law.trace fun frames w' _ _ => ?_
  have hkind : kind.prototype.index < 10 := by cases kind <;> decide
  refine (law.allocate_ofList .ordinary hkind ?_ trivial).post fun _ _ _ h => h.1
  intro entry h
  simp only [List.mem_cons, List.not_mem_nil, or_false] at h
  rcases h with rfl | rfl
  · exact law.primitive_ok w' _
  · exact law.primitive_ok w' _

/-- What a catch clause binds. -/
theorem faultValue {f : Fault} (hf : D.fault w f) :
    D.Keeps fp w (Eval.faultValue f) (Eval.faultValue f)
      fun w' caught => D.value w' (caught.getD .undefined) := by
  match f with
  | .thrown value text trace => exact law.pure (law.thrown_value hf)
  | .typeError message =>
      exact law.bind (law.createError _ message) fun _ _ _ h => law.pure h
  | .referenceError message =>
      exact law.bind (law.createError _ message) fun _ _ _ h => law.pure h
  | .rangeError message =>
      exact law.bind (law.createError _ message) fun _ _ _ h => law.pure h
  | .internal .. | .timeout .. | .invalidTree => exact law.pure (law.primitive_ok w _)

/-! ## Functions -/

/-- A function is made from code that passes the checks. -/
theorem instantiate {s : ScopeId} {code : FunctionCode} (isArrow : Bool) (name : Option String)
    (hs : D.scope w s) (hc : D.code code) :
    D.Keeps fp w (Eval.instantiate s code isArrow name) (Eval.instantiate s code isArrow name)
      D.slot := by
  refine .ite (fun hg => ?_) fun _ => .ite (fun ha => ?_) fun _ => ?_
  · refine law.unsupported fun refines => ?_
    have := refines.code _ (FunctionCode.code_of_all hc.1)
    simp [Checks.supported, FunctionCode.isSupported, hg] at this
  · refine law.unsupported fun refines => ?_
    have := refines.code _ (FunctionCode.code_of_all hc.1)
    simp [Checks.supported, FunctionCode.isSupported, ha] at this
  · refine .ite (fun _ => ?_) fun _ => ?_
    · exact law.bind (law.createFunction ⟨hc, hs⟩) fun _ _ _ h => law.pure h
    · exact law.bind (law.createConstructor ⟨hc, hs⟩) fun _ _ _ h => law.pure h

theorem functionExpression {s : ScopeId} {code : FunctionCode} (hs : D.scope w s)
    (hc : D.code code) :
    D.Keeps fp w (Eval.functionExpression s code) (Eval.functionExpression s code) D.slot := by
  unfold Eval.functionExpression
  match code.name with
  | none => exact law.instantiate false none hs hc
  | some name =>
      refine law.inChild hs fun inner w' hw hi _ => ?_
      refine law.bind (law.instantiate false none hi hc) fun function w'' hw' hf => ?_
      refine law.bind (law.declare name true (law.scope_mono hw' hi) (law.slot_value hf) rfl) ?_
      exact fun _ _ hw'' _ => law.pure (law.slot_mono hw'' hf)

/-! ## Members and hoisted names -/

theorem defineIndexed {target : ObjectId} {values : List Value} (index : Nat)
    (ht : D.value w (.object target)) (hv : ∀ v ∈ values, D.value w v) :
    D.Keeps fp w (Eval.defineIndexed target index values) (Eval.defineIndexed target index values)
      fun _ _ => True := by
  induction values generalizing w index with
  | nil => exact law.pure trivial
  | cons v rest ih =>
      refine law.bind (law.define _ ht (hv v List.mem_cons_self)) fun _ w' hw _ => ?_
      refine ih (index + 1) (law.value_mono hw ht) (law.values_mono hw ?_)
      exact fun v hmem => hv v (List.mem_cons_of_mem _ hmem)

theorem defineAccessor {target : ObjectId} {function : Value} (key : String) (isGetter : Bool)
    (ht : D.target w target) (hf : D.slot w function) :
    D.Keeps fp w (Eval.defineAccessor target key isGetter function)
      (Eval.defineAccessor target key isGetter function) fun _ _ => True := by
  refine law.bind (law.object target) fun found w' hw hfound => ?_
  subst hfound
  have ht' := law.target_mono hw ht
  have hf' := law.slot_mono hw hf
  have joins {getter setter : Value} (hg : D.slot w' getter) (hs : D.slot w' setter) :
      D.property w'
        (if isGetter then .accessor function setter else .accessor getter function) := by
    cases isGetter with
    | true => exact ⟨hf', hs⟩
    | false => exact ⟨hg, hf'⟩
  have absent := joins (law.slot_undefined w') (law.slot_undefined w')
  cases hown : ((D.machine w').object target).own? key with
  | none => exact law.define key (law.target_value ht') absent
  | some p =>
      cases p with
      | data value _ => exact law.define key (law.target_value ht') absent
      | accessor getter setter =>
          have hp := law.own_target ht' hown
          exact law.define key (law.target_value ht') (joins hp.1 hp.2)

theorem hoist {s : ScopeId} (body : List Stmt) (hs : D.scope w s) (hfp : fp.scope = some s) :
    D.Keeps fp w (Eval.hoist s body) (Eval.hoist s body)
      fun w' _ => D.ready w' s (hoistedNames body) :=
  law.declareAll (hoistedNames body) hs hfp

end Discipline.Lawful

end ScriptTree
