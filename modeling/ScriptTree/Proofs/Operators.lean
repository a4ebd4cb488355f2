import ScriptTree.Proofs.Actions

/-!
# Properties, conversions and operators keep a discipline

One rule for each definition that works on values.  The values it is given have to be in order, and
there has to be room for a call: reading a property may run a getter, and converting an object runs
its methods.
-/

namespace ScriptTree

namespace Discipline

namespace Lawful

variable {D : Discipline} (law : D.Lawful) {fp : Footprint} {w : D.World}
include law

theorem textProperty_shown {s key : String} {p : Property} (h : textProperty? s key = some p) :
    D.shown w p := by
  obtain ⟨value, rfl⟩ := textProperty?_eq_some h
  exact List.forall_mem_singleton.mpr (law.primitive_ok w _)

theorem deleteProperty {v : Value} (key : String) (hv : D.value w v) :
    D.Keeps fp w (Eval.deleteProperty v key) (Eval.deleteProperty v key) fun _ _ => True := by
  match v with
  | .primitive p =>
      refine .ite (fun _ => ?_) fun _ => law.pure trivial
      exact law.bind (law.describe _) fun _ _ _ _ => law.typeError _
  | .object o =>
      refine law.bind (law.object o) fun found w' hw' _ => ?_
      have erases : D.Keeps fp w' (Eval.erase o key >>= fun _ => pure true)
          (Eval.erase o key >>= fun _ => pure true) fun _ _ => True :=
        law.bind (law.erase key (law.value_mono hw' hv)) fun _ _ _ _ => law.pure trivial
      match found.properties.get? key with
      | some (.data _ false) => exact law.pure trivial
      | some (.data _ true) => exact erases
      | some (.accessor ..) => exact erases
      | none => exact erases

theorem requireConstructor {v : Value} (hv : D.value w v) :
    D.Keeps fp w (Eval.requireConstructor v) (Eval.requireConstructor v)
      fun w' o => D.value w' (.object o) := by
  match v with
  | .primitive p => exact law.bind (law.describe _) fun _ _ _ _ => law.typeError _
  | .object o =>
      refine law.bind (law.inspect (Q := fun _ _ => True) rfl trivial) fun _ w' hw' _ => ?_
      refine .ite (fun _ => law.pure (law.value_mono hw' hv)) fun _ => ?_
      exact law.bind (law.describe _) fun _ _ _ _ => law.typeError _

theorem newTarget {own : ObjectId} {newTarget : Option Value} (ho : D.value w (.object own))
    (ht : ∀ v, newTarget = some v → D.value w v) :
    D.Keeps fp w (Eval.newTarget own newTarget) (Eval.newTarget own newTarget)
      fun w' o => D.value w' (.object o) := by
  match newTarget with
  | some target => exact law.requireConstructor (ht target rfl)
  | none => exact law.pure ho

end Lawful

namespace Matches

variable {D : Discipline} {k : Nat} {r r' : Runner} (h : D.Matches k r r') {fp : Footprint}
  {w : D.World}
include h

/-! ## Tasks -/

theorem call {callee receiver : Value} {arguments : List Value} (hc : D.value w callee)
    (hr : D.value w receiver) (ha : ∀ v ∈ arguments, D.value w v) (hw : D.room k w 0) :
    D.Keeps fp w (r.call callee receiver arguments) (r'.call callee receiver arguments)
      D.value := by
  have hnone : ∀ o, (none : Option ObjectId) = some o → D.target w o := by
    intro o ho
    cases ho
  exact h.law.widen (h.run (.call callee receiver arguments none) w ⟨hc, hr, ha, hnone, hw⟩)

/-! ## Properties -/

theorem valueOf {receiver : Value} {found : Option Property}
    (hp : ∀ p, found = some p → D.shown w p) (hr : D.value w receiver) (hw : D.room k w 0) :
    D.Keeps fp w (r.valueOf receiver found) (r'.valueOf receiver found) D.value := by
  match found with
  | none => exact h.law.pure (h.law.primitive_ok w _)
  | some (.data value _) => exact h.law.pure (hp _ rfl value List.mem_cons_self)
  | some (.accessor getter setter) =>
      refine .ite (fun _ => h.law.pure (h.law.primitive_ok w _)) fun _ => ?_
      exact h.call (hp _ rfl getter List.mem_cons_self) hr (fun v hv => nomatch hv) hw

theorem readProperty {o : ObjectId} {receiver : Value} (key : String)
    (hr : D.value w receiver) (hw : D.room k w 0) :
    D.Keeps fp w (r.readProperty o key receiver) (r'.readProperty o key receiver) D.value :=
  h.law.bind (h.law.property? o key) fun _ _ hreach hp =>
    h.valueOf hp (h.law.value_mono hreach hr) (h.law.room_mono hreach hw)

theorem assignProperty {o : ObjectId} {value receiver : Value} (key : String)
    (ho : D.value w (.object o)) (hv : D.value w value) (hr : D.value w receiver)
    (hw : D.room k w 0) :
    D.Keeps fp w (r.assignProperty o key value receiver) (r'.assignProperty o key value receiver)
      fun _ _ => True := by
  refine h.law.bind (h.law.property? o key) fun found w' hreach hp => ?_
  have hv' := h.law.value_mono hreach hv
  match found with
  | some (.accessor getter setter) =>
      refine .ite (fun _ => h.law.pure trivial) fun _ => ?_
      have hs := hp _ rfl setter (List.mem_cons_of_mem _ List.mem_cons_self)
      refine h.law.bind (h.call hs (h.law.value_mono hreach hr) ?_ (h.law.room_mono hreach hw))
        fun _ _ _ _ => h.law.pure trivial
      intro v hmem
      cases List.mem_singleton.mp hmem
      exact hv'
  | some (.data _ false) => exact h.law.pure trivial
  | some (.data _ true) => exact h.law.define key (h.law.value_mono hreach ho) hv'
  | none => exact h.law.define key (h.law.value_mono hreach ho) hv'

theorem getProperty {v : Value} (key : String) (hv : D.value w v) (hw : D.room k w 0) :
    D.Keeps fp w (r.getProperty v key) (r'.getProperty v key) D.value := by
  match v with
  | .object o => exact h.readProperty key hv hw
  | .undefined | .null =>
      exact h.law.bind (h.law.describe _) fun _ _ _ _ => h.law.typeError _
  | .bool _ | .number _ => exact h.readProperty key hv hw
  | .string s =>
      simp only [Runner.getProperty, Primitive.prototype?, Primitive.property?]
      cases hp : textProperty? s key with
      | none => exact h.readProperty key hv hw
      | some property =>
          refine h.valueOf ?_ hv hw
          intro q hq
          cases hq
          exact h.law.textProperty_shown hp

theorem setProperty {v value : Value} (key : String) (hv : D.value w v) (hx : D.value w value)
    (hw : D.room k w 0) :
    D.Keeps fp w (r.setProperty v key value) (r'.setProperty v key value) fun _ _ => True := by
  match v with
  | .object o => exact h.assignProperty key hv hx hv hw
  | .primitive p =>
      refine .ite (fun _ => ?_) fun _ => h.law.pure trivial
      exact h.law.bind (h.law.describe _) fun _ _ _ _ => h.law.typeError _

/-! ## Conversions -/

theorem primitiveFrom {o : ObjectId} :
    ∀ {w : D.World} (names : List String), D.value w (.object o) → D.room k w 0 →
      D.Keeps fp w (r.primitiveFrom o names) (r'.primitiveFrom o names) fun _ _ => True
  | _, [], _, _ => h.law.typeError _
  | w, name :: rest, ho, hw => by
      refine h.law.bind (h.readProperty name ho hw) fun method w₁ h₁ hm => ?_
      refine h.law.bind (h.law.isCallable method) fun answer w₂ h₂ _ => ?_
      have ho₂ := h.law.value_mono h₂ (h.law.value_mono h₁ ho)
      have hw₂ := h.law.room_mono h₂ (h.law.room_mono h₁ hw)
      refine .ite (fun _ => ?_) fun _ => primitiveFrom rest ho₂ hw₂
      refine h.law.bind (h.call (h.law.value_mono h₂ hm) ho₂ (fun v hv => nomatch hv) hw₂) ?_
      intro result w₃ h₃ _
      match result with
      | .primitive p => exact h.law.pure trivial
      | .object _ => exact primitiveFrom rest (h.law.value_mono h₃ ho₂) (h.law.room_mono h₃ hw₂)

theorem toPrimitive {v : Value} (hint : Hint) (hv : D.value w v) (hw : D.room k w 0) :
    D.Keeps fp w (r.toPrimitive hint v) (r'.toPrimitive hint v) fun _ _ => True := by
  match v with
  | .primitive p => exact h.law.pure trivial
  | .object o => exact h.primitiveFrom hint.methods hv hw

theorem toNumber {v : Value} (hv : D.value w v) (hw : D.room k w 0) :
    D.Keeps fp w (r.toNumber v) (r'.toNumber v) fun _ _ => True :=
  h.law.bind (h.toPrimitive .number hv hw) fun _ _ _ _ => h.law.pure trivial

theorem toText {v : Value} (hv : D.value w v) (hw : D.room k w 0) :
    D.Keeps fp w (r.toText v) (r'.toText v) fun _ _ => True :=
  h.law.bind (h.toPrimitive .string hv hw) fun _ _ _ _ => h.law.pure trivial

theorem toWord {v : Value} (hv : D.value w v) (hw : D.room k w 0) :
    D.Keeps fp w (r.toWord v) (r'.toWord v) fun _ _ => True :=
  h.law.bind (h.toNumber hv hw) fun _ _ _ _ => h.law.pure trivial

theorem elementsFrom {v : Value} :
    ∀ {w : D.World} (index count : Nat) {done : List Value}, D.value w v →
      (∀ v ∈ done, D.value w v) → D.room k w 0 →
      D.Keeps fp w (r.elementsFrom v index count done) (r'.elementsFrom v index count done)
        fun w' values => ∀ v ∈ values, D.value w' v
  | w, _, 0, done, _, hd, _ => by
      refine h.law.pure fun v hmem => hd v (List.mem_reverse.mp hmem)
  | w, index, count + 1, done, hv, hd, hw => by
      refine h.law.bind (h.getProperty _ hv hw) fun element w' hreach he => ?_
      refine elementsFrom (index + 1) count (h.law.value_mono hreach hv) ?_
        (h.law.room_mono hreach hw)
      intro x hx
      rcases List.mem_cons.mp hx with rfl | hx
      · exact he
      · exact h.law.value_mono hreach (hd x hx)

theorem arrayLike {v : Value} (hv : D.value w v) (hw : D.room k w 0) :
    D.Keeps fp w (r.arrayLike v) (r'.arrayLike v) fun w' values =>
      ∀ v ∈ values, D.value w' v := by
  refine h.law.bind (h.getProperty "length" hv hw) fun length w₁ h₁ hl => ?_
  have hw₁ := h.law.room_mono h₁ hw
  refine h.law.bind (h.toNumber hl hw₁) fun count w₂ h₂ _ => ?_
  exact h.elementsFrom 0 _ (h.law.value_mono h₂ (h.law.value_mono h₁ hv))
    (fun v hmem => nomatch hmem) (h.law.room_mono h₂ hw₁)

/-! ## Equality, construction and membership -/

theorem looseEquals {left right : Value} (hl : D.value w left) (hr : D.value w right)
    (hw : D.room k w 0) :
    D.Keeps fp w (r.looseEquals left right) (r'.looseEquals left right) fun _ _ => True := by
  match left, right with
  | .primitive p, .primitive q => exact h.law.pure trivial
  | .object a, .object b => exact h.law.pure trivial
  | .object a, .primitive q =>
      refine .ite (fun _ => h.law.pure trivial) fun _ => ?_
      exact h.law.bind (h.toPrimitive .number hl hw) fun _ _ _ _ => h.law.pure trivial
  | .primitive p, .object b =>
      refine .ite (fun _ => h.law.pure trivial) fun _ => ?_
      exact h.law.bind (h.toPrimitive .number hr hw) fun _ _ _ _ => h.law.pure trivial

theorem prototypeFor {constructor : ObjectId} (hc : D.value w (.object constructor))
    (hw : D.room k w 0) :
    D.Keeps fp w (r.prototypeFor constructor) (r'.prototypeFor constructor)
      fun w' o => D.value w' (.object o) := by
  refine h.law.bind (h.readProperty "prototype" hc hw) fun found w' _ hv => ?_
  match found with
  | .object prototype => exact h.law.pure hv
  | .primitive _ => exact h.law.pure (h.law.intrinsic_ok w' _ (by decide))

/-- The constructor may box only the object it is given, which is fresh. -/
theorem construct {constructor : Value} {arguments : List Value} {newTarget : Option Value}
    (hc : D.value w constructor) (ha : ∀ v ∈ arguments, D.value w v)
    (ht : ∀ v, newTarget = some v → D.value w v) (hw : D.room k w 0) :
    D.Keeps fp w (r.construct constructor arguments newTarget)
      (r'.construct constructor arguments newTarget) fun w' o => D.value w' (.object o) := by
  have law := h.law
  refine law.bind (law.requireConstructor hc) fun own w₁ h₁ ho => ?_
  have ht₁ := fun v hv => law.value_mono h₁ (ht v hv)
  refine law.bind (law.newTarget ho ht₁) fun target w₂ h₂ ht₂ => ?_
  have hw₂ := law.room_mono h₂ (law.room_mono h₁ hw)
  refine law.bind (h.prototypeFor ht₂ hw₂) fun prototype w₃ h₃ hp => ?_
  -- the object under construction is the next one, which is not there yet
  refine law.forgetTarget (o := ⟨(D.machine w₃).objects.size⟩) (Nat.le_refl _) ?_
  refine law.bind (law.createFrom hp) fun fresh w₄ h₄ ⟨place, hfresh, htarget⟩ => ?_
  rw [← place] at h₄ ⊢
  have mono {v : Value} (hv : D.value w v) : D.value w₄ v :=
    law.value_mono h₄ (law.value_mono h₃ (law.value_mono h₂ (law.value_mono h₁ hv)))
  have calls := h.run (.call constructor (.object fresh) arguments (some fresh)) w₄
    ⟨mono hc, hfresh, fun v hv => mono (ha v hv), fun _ ho => by cases ho; exact htarget,
      law.room_mono h₄ (law.room_mono h₃ hw₂)⟩
  refine law.bind (calls.reach fun _ => law.widenScope) fun result w₅ h₅ hv => ?_
  match result with
  | .object o => exact law.pure hv
  | .primitive _ => exact law.pure (law.value_mono h₅ hfresh)

theorem isInstanceOf {v constructor : Value} (hv : D.value w v) (hc : D.value w constructor)
    (hw : D.room k w 0) :
    D.Keeps fp w (r.isInstanceOf v constructor) (r'.isInstanceOf v constructor)
      fun _ _ => True := by
  refine h.law.bind (h.law.isCallable constructor) fun answer w' hreach _ => ?_
  have hc' := h.law.value_mono hreach hc
  match constructor, answer with
  | .primitive _, _ => exact h.law.typeError _
  | .object c, false => exact h.law.typeError _
  | .object c, true =>
      match v with
      | .primitive _ => exact h.law.pure trivial
      | .object o =>
          refine h.law.bind (h.readProperty "prototype" hc' (h.law.room_mono hreach hw)) ?_
          intro found w'' _ _
          match found with
          | .object prototype =>
              exact h.law.bind (h.law.object o) fun _ _ _ _ => h.law.pure trivial
          | .primitive _ => exact h.law.typeError _

theorem keyOfIn {key : Value} (hk : D.value w key) (hw : D.room k w 0) :
    D.Keeps fp w (r.keyOfIn key) (r'.keyOfIn key) fun _ _ => True := by
  match key with
  | .string s => exact h.law.pure trivial
  | .number x => exact h.toText hk hw
  | .undefined | .null | .bool _ | .object _ =>
      exact h.law.bind (h.law.describe _) fun _ _ _ _ => h.law.typeError _

theorem isIn {key target : Value} (hk : D.value w key) (hw : D.room k w 0) :
    D.Keeps fp w (r.isIn key target) (r'.isIn key target) fun _ _ => True := by
  refine h.law.bind (h.keyOfIn hk hw) fun text w' _ _ => ?_
  match target with
  | .object o => exact h.law.bind (h.law.property? o text) fun _ _ _ _ => h.law.pure trivial
  | .primitive _ => exact h.law.bind (h.law.describe _) fun _ _ _ _ => h.law.typeError _

/-! ## Operators -/

theorem onNumbers {left right : Value} {f : Float → Float → Value} (hl : D.value w left)
    (hr : D.value w right) (hw : D.room k w 0) (hf : ∀ w a b, D.value w (f a b)) :
    D.Keeps fp w (r.onNumbers f left right) (r'.onNumbers f left right) D.value := by
  refine h.law.bind (h.toNumber hl hw) fun a w' hreach _ => ?_
  refine h.law.bind (h.toNumber (h.law.value_mono hreach hr) (h.law.room_mono hreach hw)) ?_
  exact fun b w'' _ _ => h.law.pure (hf w'' a b)

theorem onWords {left right : Value} (f : UInt32 → UInt32 → UInt32) (hl : D.value w left)
    (hr : D.value w right) (hw : D.room k w 0) :
    D.Keeps fp w (r.onWords f left right) (r'.onWords f left right) D.value := by
  refine h.law.bind (h.toWord hl hw) fun a w' hreach _ => ?_
  refine h.law.bind (h.toWord (h.law.value_mono hreach hr) (h.law.room_mono hreach hw)) ?_
  exact fun b w'' _ _ => h.law.pure (h.law.primitive_ok w'' _)

theorem shift {left right : Value} (f : UInt32 → UInt32 → Float) (hl : D.value w left)
    (hr : D.value w right) (hw : D.room k w 0) :
    D.Keeps fp w (r.shift f left right) (r'.shift f left right) D.value := by
  refine h.law.bind (h.toWord hr hw) fun a w' hreach _ => ?_
  refine h.law.bind (h.toWord (h.law.value_mono hreach hl) (h.law.room_mono hreach hw)) ?_
  exact fun b w'' _ _ => h.law.pure (h.law.primitive_ok w'' _)

theorem joinTexts {left right : Value} (hl : D.value w left) (hr : D.value w right)
    (hw : D.room k w 0) :
    D.Keeps fp w
      (do
        let a ← r.toText left
        let b ← r.toText right
        return .string (a ++ b))
      (do
        let a ← r'.toText left
        let b ← r'.toText right
        return .string (a ++ b)) D.value := by
  refine h.law.bind (h.toText hl hw) fun a w' hreach _ => ?_
  refine h.law.bind (h.toText (h.law.value_mono hreach hr) (h.law.room_mono hreach hw)) ?_
  exact fun b w'' _ _ => h.law.pure (h.law.primitive_ok w'' _)

theorem add {left right : Value} (hl : D.value w left) (hr : D.value w right)
    (hw : D.room k w 0) : D.Keeps fp w (r.add left right) (r'.add left right) D.value := by
  unfold Runner.add
  split
  · exact h.joinTexts hl hr hw
  · exact h.joinTexts hl hr hw
  · exact h.onNumbers hl hr hw fun w _ _ => h.law.primitive_ok w _

theorem applyBinary {left right : Value} (op : BinaryOp) (hl : D.value w left)
    (hr : D.value w right) (hw : D.room k w 0) :
    D.Keeps fp w (r.applyBinary op left right) (r'.applyBinary op left right) D.value := by
  have prim {w' : D.World} (p : Primitive) : D.value w' (.primitive p) := h.law.primitive_ok w' p
  cases op with
  | add => exact h.add hl hr hw
  | sub | mul | div | mod | exp | lt | ltEq | gt | gtEq =>
      rw [Runner.applyBinary, Runner.applyBinary]
      exact h.onNumbers hl hr hw fun _ _ _ => prim _
  | strictEq | strictNotEq => exact h.law.pure (prim _)
  | eq | notEq => exact h.law.bind (h.looseEquals hl hr hw) fun _ _ _ _ => h.law.pure (prim _)
  | bitAnd | bitOr | bitXor =>
      rw [Runner.applyBinary, Runner.applyBinary]
      exact h.onWords _ hl hr hw
  | shiftLeft | shiftRight | shiftRightUnsigned =>
      rw [Runner.applyBinary, Runner.applyBinary]
      exact h.shift _ hl hr hw
  | isIn => exact h.law.bind (h.isIn hl hw) fun _ _ _ _ => h.law.pure (prim _)
  | instanceOf =>
      exact h.law.bind (h.isInstanceOf hl hr hw) fun _ _ _ _ => h.law.pure (prim _)

theorem applyUnary {v : Value} (op : UnaryOp) (hv : D.value w v) (hw : D.room k w 0) :
    D.Keeps fp w (r.applyUnary op v) (r'.applyUnary op v) D.value := by
  have prim {w' : D.World} (p : Primitive) : D.value w' (.primitive p) := h.law.primitive_ok w' p
  cases op with
  | minus | plus => exact h.law.bind (h.toNumber hv hw) fun _ _ _ _ => h.law.pure (prim _)
  | bitNot => exact h.law.bind (h.toWord hv hw) fun _ _ _ _ => h.law.pure (prim _)
  | typeof =>
      exact h.law.bind (h.law.inspect (Q := fun _ _ => True) rfl trivial) fun _ _ _ _ =>
        h.law.pure (prim _)
  | not | void | delete => exact h.law.pure (prim _)

end Matches

end Discipline

end ScriptTree
