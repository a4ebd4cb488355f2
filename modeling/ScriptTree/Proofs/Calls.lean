import ScriptTree.Proofs.Statements

/-!
# Calls keep a discipline

One rule for each definition that a call runs: the body of a function, the functions of the library,
and those of the embedder.  A call opens a scope of its own, so it binds names nowhere else; and the
only object that it boxes is the one under construction.
-/

namespace ScriptTree

/-- Allows a call, with any check in place of that of the limit on active calls. -/
def Runner.allowBy (r : Runner) (check : Eval Unit) (callee : Value) (target : Option ObjectId) :
    Eval Callable := do
  let callable ← resolve callee
  if target.isSome && !callable.isConstructor then
    Eval.fail (.notConstructor (← Eval.describe callee))
  else
    Eval.checkTimeout r.settings
    check
    return callable

namespace Discipline

namespace Lawful

variable {D : Discipline} (law : D.Lawful) {fp : Footprint} {w : D.World}
  {arguments : List Value}
include law

theorem argument_ok (ha : ∀ v ∈ arguments, D.value w v) (index : Nat) :
    D.value w (argument arguments index) := by
  rw [argument]
  cases hi : arguments[index]? with
  | none => exact law.primitive_ok w _
  | some v => exact ha v (List.mem_of_getElem? hi)

theorem headD_ok (ha : ∀ v ∈ arguments, D.value w v) :
    D.value w (arguments.headD .undefined) := by
  cases arguments with
  | nil => exact law.primitive_ok w _
  | cons v rest => exact ha v List.mem_cons_self

/-! ## Functions of the library that run no script -/

theorem objectConstructor (target : Option ObjectId) (ha : ∀ v ∈ arguments, D.value w v) :
    D.Keeps fp w (objectConstructor arguments target) (objectConstructor arguments target)
      D.value := by
  refine .ite (fun _ => .ite (fun _ => law.pure (law.primitive_ok w _)) fun _ => ?_) fun _ => ?_
  · exact law.bind law.createObject fun _ _ _ ho => law.pure ho
  · exact law.bind (law.toObject (law.argument_ok ha 0)) fun _ _ _ ho => law.pure ho

theorem objectToString (receiver : Value) :
    D.Keeps fp w (objectToString receiver) (objectToString receiver) D.value :=
  law.bind (law.inspect (Q := fun _ _ => True) rfl trivial) fun _ w' _ _ =>
    law.pure (law.primitive_ok w' _)

theorem objectValueOf {receiver : Value} (hr : D.value w receiver) :
    D.Keeps fp w (objectValueOf receiver) (objectValueOf receiver) D.value :=
  law.bind (law.toObject hr) fun _ _ _ ho => law.pure ho

theorem objectCreate (ha : ∀ v ∈ arguments, D.value w v) :
    D.Keeps fp w (objectCreate arguments) (objectCreate arguments) D.value := by
  have hv := law.argument_ok ha 0
  unfold ScriptTree.objectCreate
  match argument arguments 0, hv with
  | .object prototype, hv =>
      exact law.bind (law.createFrom hv) fun _ _ _ ho => law.pure ho.2.1
  | .null, _ =>
      have ho : D.object w (.ofPrototype none) := by
        refine ⟨?_, ?_, trivial, .empty⟩
        · intro p hp
          cases hp
        · intro entry he
          cases he
      exact law.bind (law.allocate ho) fun _ _ _ ho => law.pure ho.2.1
  | .undefined, _ | .bool _, _ | .number _, _ | .string _, _ =>
      exact law.bind (law.describe _) fun _ _ _ _ => law.typeError _

theorem getPrototypeOf (ha : ∀ v ∈ arguments, D.value w v) :
    D.Keeps fp w (getPrototypeOf arguments) (getPrototypeOf arguments) D.value := by
  refine law.bind (law.toObject (law.argument_ok ha 0)) fun o w₁ _ _ => ?_
  refine law.bind (law.object o) fun found w₂ _ hfound => ?_
  subst hfound
  cases hp : ((D.machine w₂).object o).prototype with
  | none => exact law.pure (law.primitive_ok w₂ _)
  | some prototype => exact law.pure (law.prototype_ok hp)

theorem requireAccessor {v : Value} (role : String) (hv : D.value w v) :
    D.Keeps fp w (Runner.requireAccessor role v) (Runner.requireAccessor role v)
      fun w' _ => D.slot w' v := by
  refine law.bind (law.isCallable v) fun answer w' hw hanswer => ?_
  refine .ite (fun hok => law.pure ?_) fun _ =>
    law.bind (law.describe v) fun _ _ _ _ => law.typeError _
  rcases Bool.or_eq_true_iff.mp hok with hundefined | hcallable
  · match v, hundefined with
    | .undefined, _ => exact law.slot_undefined w'
  · exact law.slot_callable (law.value_mono hw hv) (hanswer ▸ hcallable)

theorem boxOrAnswer {target : Option ObjectId} {p : Primitive} (hp : p.isNullish = false)
    (ht : ∀ o, target = some o → D.target w o) (hfp : fp.target = target) :
    D.Keeps fp w (Eval.boxOrAnswer p target) (Eval.boxOrAnswer p target) D.value := by
  cases target with
  | none => exact law.pure (law.primitive_ok w _)
  | some o =>
      exact law.bind (law.box (ht o rfl) hp hfp) fun _ w' _ _ => law.pure (law.primitive_ok w' _)

theorem unboxed? (v : Value) :
    D.Keeps fp w (Eval.unboxed? v) (Eval.unboxed? v) fun _ _ => True := by
  cases v with
  | primitive p => exact law.pure trivial
  | object o =>
      refine law.bind (law.object o) fun found w' _ _ => ?_
      match found.kind with
      | .boxed p => exact law.pure trivial
      | .ordinary | .function _ | .host _ => exact law.pure trivial

theorem thisPrimitive {α : Type} (name : String) (pick? : Primitive → Option α) (v : Value) :
    D.Keeps fp w (Eval.thisPrimitive name pick? v) (Eval.thisPrimitive name pick? v)
      fun _ _ => True := by
  refine law.bind (law.unboxed? v) fun found _ _ _ => ?_
  match found.bind pick? with
  | some a => exact law.pure trivial
  | none => exact law.typeError _

theorem fillError {error : ObjectId} (kind : ErrorKind) (message : Option String)
    (he : D.value w (.object error)) :
    D.Keeps fp w (Runner.fillError kind error message) (Runner.fillError kind error message)
      fun _ _ => True := by
  refine law.bind law.trace fun frames w₁ h₁ _ => ?_
  have he₁ := law.value_mono h₁ he
  cases message with
  | none => exact law.define _ he₁ (law.primitive_ok w₁ _)
  | some text =>
      refine law.bind (law.define _ he₁ (law.primitive_ok w₁ _)) fun _ w₂ h₂ _ => ?_
      exact law.define _ (law.value_mono h₂ he₁) (law.primitive_ok w₂ _)

theorem hostFunction {f : HostFunction} {call : HostCall} (hr : D.value w call.receiver)
    (ha : ∀ v ∈ call.arguments, D.value w v) :
    D.Keeps fp w (f.run call) (f.run call) D.value := by
  unfold HostFunction.run
  match f.answer call with
  | .primitive p => exact law.pure (law.primitive_ok w p)
  | .receiver => exact law.pure hr
  | .argument index => exact law.pure (law.argument_ok ha index)
  | .typeError message => exact law.typeError message

/-! ## Frames -/

theorem resolve (callee : Value) :
    D.Keeps fp w (Runner.resolve callee) (Runner.resolve callee) D.callable := by
  have found : D.Keeps fp w (Eval.inspect (·.callable? callee))
      (Eval.inspect (·.callable? callee)) fun w' found =>
        ∀ c, found = some c → D.callable w' c :=
    law.inspect rfl fun _ hc => law.callable_ok hc
  refine law.bind found fun found w' _ hfound => ?_
  cases found with
  | some callable => exact law.pure (hfound callable rfl)
  | none =>
      cases callee with
      | object o => exact law.bind (law.describe _) fun _ _ _ _ => law.typeError _
      | primitive p => exact law.bind (law.describe _) fun _ _ _ _ => law.referenceError _

/-- What keeps the discipline inside one more call keeps it outside. -/
theorem inFrame {k : Nat} {frame : Frame} {α : Type} {x y : Eval α} {Q : D.World → α → Prop}
    (back : ∀ w₂ w₃ a, D.Returns fp w w₂ w₃ → Q w₂ a → Q w₃ a) (may : D.mayEnter w)
    (room : D.room (k + 1) w 0) (hx : ∀ w₁, D.Enters k frame w w₁ → D.Keeps fp w₁ x y Q) :
    D.Keeps fp w (Eval.withFrame frame x) (Eval.withFrame frame y) Q := by
  obtain ⟨w₁, enters, leave⟩ := law.enters frame may room
  cases hx w₁ enters with
  | value w₂ a hr hl hd hq =>
      obtain ⟨w₃, returns⟩ := leave fp w₂ hr
      refine .value w₃ a returns.reaches ?_ ?_ (back w₂ w₃ a returns hq)
      · rw [Eval.withFrame, ← enters.machine, hl, returns.machine]
      · rw [Eval.withFrame, ← enters.double, hd, returns.double]
  | fault w₂ f hr hl hd hf =>
      obtain ⟨w₃, returns⟩ := leave fp w₂ hr
      refine .fault w₃ f returns.reaches ?_ ?_ (returns.fault f hf)
      · rw [Eval.withFrame, ← enters.machine, hl, returns.machine]
      · rw [Eval.withFrame, ← enters.double, hd, returns.double]
  | exhausted w₂ hr hl mayExhaust hd =>
      obtain ⟨w₃, returns⟩ := leave fp w₂ hr
      refine .exhausted w₃ returns.reaches ?_ mayExhaust fun step => ?_
      · rw [Eval.withFrame, ← enters.machine, hl, returns.machine]
      · rw [Eval.withFrame, ← enters.double, hd (returns.inStep step), returns.double]

theorem withFrame {k : Nat} {frame : Frame} {x y : Eval Value} (may : D.mayEnter w)
    (room : D.room (k + 1) w 0)
    (hx : ∀ w₁, D.Enters k frame w w₁ → D.Keeps fp w₁ x y D.value) :
    D.Keeps fp w (Eval.withFrame frame x) (Eval.withFrame frame y) D.value :=
  law.inFrame (fun _ _ a returns => returns.value a) may room hx

end Lawful

namespace Matches

variable {D : Discipline} {k : Nat} {r r' : Runner} (h : D.Matches k r r') {fp : Footprint}
  {w : D.World} {s : ScopeId}
include h

/-! ## Functions of scripts -/

theorem bindParameter {arguments : List Value} {param : Pattern}
    (hp : D.Fits k w (param.all D.checks) (sizeOf param)) (hs : D.scope w s)
    (hfp : fp.scope = some s) (ha : ∀ v ∈ arguments, D.value w v)
    (supported : D.checks.Refines .supported → param.isParameter = true) :
    D.Keeps fp w (r.bindParameter s arguments param) (r'.bindParameter s arguments param)
      fun _ _ => True := by
  have hgiven := h.law.headD_ok ha
  cases param with
  | ident name => exact h.law.declare name true hs hgiven hfp
  | default target e =>
      have he : D.Fits k w (e.all D.checks) (sizeOf e) :=
        hp.part h.law (by simp +contextual) (by simp +arith)
      cases target with
      | ident name =>
          refine .ite (fun _ => ?_) fun _ => h.law.declare name true hs hgiven hfp
          refine h.law.bind (h.evalNamed name he hs) fun v w' hw hv => ?_
          exact h.law.declare name true (h.law.scope_mono hw hs) hv hfp
      | _ => exact h.law.unsupported fun refines => nomatch supported refines
  | rest target =>
      cases target with
      | ident name =>
          refine h.law.bind (h.law.createArray ha) fun o w' hw ho => ?_
          exact h.law.declare name true (h.law.scope_mono hw hs) ho hfp
      | _ => exact h.law.unsupported fun refines => nomatch supported refines
  | unsupported => exact h.law.unsupported fun refines => nomatch supported refines

theorem bindParameters {params : List Pattern} {arguments : List Value}
    (hp : D.Fits k w (allParams D.checks params) (sizeOf params)) (hs : D.scope w s)
    (hfp : fp.scope = some s) (ha : ∀ v ∈ arguments, D.value w v)
    (supported : D.checks.Refines .supported → params.all Pattern.isParameter = true) :
    D.Keeps fp w (r.bindParameters s params arguments) (r'.bindParameters s params arguments)
      fun _ _ => True := by
  induction params generalizing w arguments with
  | nil => exact h.law.pure trivial
  | cons param rest ih =>
      have hfirst : D.Fits k w (param.all D.checks) (sizeOf param) :=
        hp.part h.law (by simp +contextual) (by simp +arith)
      have hrest : D.Fits k w (allParams D.checks rest) (sizeOf rest) :=
        hp.part h.law (by simp +contextual) (by simp +arith)
      rw [List.all_cons, Bool.and_eq_true] at supported
      refine h.law.bind (h.bindParameter hfirst hs hfp ha fun refines => (supported refines).1)
        fun _ w' hw _ => ?_
      refine ih (hrest.mono h.law hw) (h.law.scope_mono hw hs) (h.law.values_mono hw ?_)
        fun refines => (supported refines).2
      exact fun v hv => ha v (List.mem_of_mem_tail hv)

theorem bodyValue {js : List Jump} {completion : Completion} (hc : D.ends js w completion)
    (supported : D.checks.Refines .supported → js.all (· = .ret) = true) :
    D.Keeps fp w (Runner.bodyValue completion) (Runner.bodyValue completion) D.value := by
  have only (refines : D.checks.Refines .supported) {j : Jump} (hj : j ∈ js) : j = .ret :=
    of_decide_eq_true (List.all_eq_true.mp (supported refines) j hj)
  cases completion with
  | normal value => exact h.law.pure (h.law.primitive_ok w _)
  | ret value => exact h.law.pure hc.1
  | brk => exact h.law.internalFault_of fun refines => nomatch only refines hc
  | cont => exact h.law.internalFault_of fun refines => nomatch only refines hc

theorem runBody {body : FunctionBody} (hb : D.Fits k w (body.all D.checks) (sizeOf body))
    (hs : D.scope w s) (hfp : fp.scope = some s)
    (supported : D.checks.Refines .supported → body.keepsJumps = true) :
    D.Keeps fp w (r.runBody s body) (r'.runBody s body) D.value := by
  cases body with
  | expression e =>
      have he : D.Fits k w (e.all D.checks) (sizeOf e) :=
        hb.part h.law (by simp +contextual) (by simp +arith)
      exact h.eval he hs
  | block body =>
      have hbody : D.Fits k w (allStmts D.checks body) (sizeOf body) :=
        hb.part h.law (by simp +contextual) (by simp +arith)
      refine h.law.bind (h.law.hoist body hs hfp) fun _ w₁ h₁ ready => ?_
      refine h.law.bind (h.statements (hbody.mono h.law h₁) (h.law.scope_mono h₁ hs) ready hfp
        (h.law.primitive_ok w₁ _)) fun completion w₂ _ hc => ?_
      exact h.bodyValue hc supported

theorem openCall {c : Closure} {receiver : Value} {arguments : List Value}
    (hs : D.scope w c.scope) (hr : D.value w receiver) (ha : ∀ v ∈ arguments, D.value w v)
    (hfp : fp.scope = some ⟨(D.machine w).scopes.size⟩) :
    D.Keeps fp w (Runner.openCall c receiver arguments) (Runner.openCall c receiver arguments)
      fun w' s => fp.scope = some s ∧ D.scope w' s := by
  refine .ite (fun _ => ?_) fun _ => ?_
  · exact (h.law.childScope hs).post fun _ _ _ ⟨place, hs', _⟩ => ⟨place ▸ hfp, hs'⟩
  · refine h.law.bind (h.law.openScope hs hr) fun s w₁ h₁ ⟨place, hs₁⟩ => ?_
    rw [← place] at hfp
    refine h.law.bind (h.law.createIndexed (by decide) (h.law.values_mono h₁ ha)) ?_
    intro list w₂ h₂ hlist
    have hs₂ := h.law.scope_mono h₂ hs₁
    refine h.law.bind (h.law.declare "arguments" true hs₂ hlist hfp) fun _ w₃ h₃ _ => ?_
    exact h.law.pure ⟨hfp, h.law.scope_mono h₃ hs₂⟩

/-- A call of a script function binds names in the scope it opens, and nowhere else. -/
theorem invoke {c : Closure} {receiver : Value} {arguments : List Value}
    (hc : D.callable w (.closure c)) (hr : D.value w receiver)
    (ha : ∀ v ∈ arguments, D.value w v) (hw : ∀ n, D.fits n → D.room k w n) :
    D.Keeps fp w (r.invoke c receiver arguments) (r'.invoke c receiver arguments) D.value := by
  obtain ⟨name, ⟨codeName, params, body, generator, isAsync, span⟩, scope, isArrow⟩ := c
  obtain ⟨⟨passes, hfits⟩, hs⟩ := hc
  have hcode := Fits.mk (D := D) passes (hw _ hfits)
  have hparams : D.Fits k w (allParams D.checks params) (sizeOf params) :=
    hcode.part h.law (by simp +contextual) (by simp +arith)
  have hbody : D.Fits k w (body.all D.checks) (sizeOf body) :=
    hcode.part h.law (by simp +contextual) (by simp +arith)
  have supported (refines : D.checks.Refines .supported) :
      params.all Pattern.isParameter = true ∧ body.keepsJumps = true := by
    have := refines.code _ (FunctionCode.code_of_all passes)
    simp only [Checks.supported, FunctionCode.isSupported, Bool.and_eq_true] at this
    exact ⟨this.1.2, this.2⟩
  -- parameters and hoisted names go to the scope of the call, which is the next one
  refine h.law.forgetScope (s := ⟨(D.machine w).scopes.size⟩) (Nat.le_refl _) ?_
  refine h.law.bind (h.openCall hs hr ha rfl) fun s w₁ h₁ opened => ?_
  obtain ⟨place, hs₁⟩ := opened
  refine h.law.bind (h.bindParameters (hparams.mono h.law h₁) hs₁ place
    (h.law.values_mono h₁ ha) fun refines => (supported refines).1) fun _ w₂ h₂ _ => ?_
  exact h.runBody ((hbody.mono h.law h₁).mono h.law h₂) (h.law.scope_mono h₂ hs₁) place
    fun refines => (supported refines).2

/-! ## Functions of the library -/

section Library

variable {receiver : Value} {arguments : List Value} {target : Option ObjectId}

theorem hasOwnProperty (receiver : Value) (ha : ∀ v ∈ arguments, D.value w v)
    (hw : D.room k w 0) :
    D.Keeps fp w (r.hasOwnProperty receiver arguments) (r'.hasOwnProperty receiver arguments)
      D.value := by
  refine h.law.bind (h.toText (h.law.argument_ok ha 0) hw) fun key w₁ _ _ => ?_
  cases receiver with
  | object o =>
      exact h.law.bind (h.law.object o) fun _ w₂ _ _ => h.law.pure (h.law.primitive_ok w₂ _)
  | primitive p =>
      exact .ite (fun _ => h.law.typeError _) fun _ => h.law.pure (h.law.primitive_ok w₁ _)

theorem describedProperty {attributes : ObjectId} (ho : D.value w (.object attributes))
    (hw : D.room k w 0) :
    D.Keeps fp w (r.describedProperty attributes) (r'.describedProperty attributes)
      D.property := by
  have has (w' : D.World) (key : String) :
      D.Keeps fp w' (do return (← Eval.property? attributes key).isSome)
        (do return (← Eval.property? attributes key).isSome) fun _ _ => True :=
    h.law.bind (h.law.property? attributes key) fun _ _ _ _ => h.law.pure trivial
  have read {w' : D.World} (hw' : D.reaches fp w w') (key : String) :
      D.Keeps fp w' (r.readProperty attributes key (.object attributes))
        (r'.readProperty attributes key (.object attributes)) D.value :=
    h.readProperty key (h.law.value_mono hw' ho) (h.law.room_mono hw' hw)
  refine h.law.bind (has w "get") fun _ w₁ h₁ _ => ?_
  refine h.law.bind (has w₁ "set") fun _ w₂ h₂ _ => ?_
  have h₂ := h.law.trans h₁ h₂
  refine .ite (fun _ => ?_) fun _ => ?_
  · refine h.law.bind (has w₂ "value") fun _ w₃ h₃ _ => ?_
    refine h.law.bind (has w₃ "writable") fun _ w₄ h₄ _ => ?_
    have h₄ := h.law.trans h₂ (h.law.trans h₃ h₄)
    refine .ite (fun _ => h.law.typeError _) fun _ => ?_
    refine h.law.bind (read h₄ "get") fun getter w₅ h₅ hg => ?_
    refine h.law.bind (read (h.law.trans h₄ h₅) "set") fun setter w₆ h₆ hs => ?_
    refine h.law.bind (h.law.requireAccessor "Getter" (h.law.value_mono h₆ hg)) ?_
    intro _ w₇ h₇ hg
    refine h.law.bind (h.law.requireAccessor "Setter" (h.law.value_mono h₇ hs)) ?_
    exact fun _ w₈ h₈ hs => h.law.pure ⟨h.law.slot_mono h₈ hg, hs⟩
  · refine h.law.bind (read h₂ "value") fun value w₃ h₃ hv => ?_
    refine h.law.bind (read (h.law.trans h₂ h₃) "writable") fun _ w₄ h₄ _ => ?_
    exact h.law.pure (h.law.value_mono h₄ hv)

theorem defineProperty (ha : ∀ v ∈ arguments, D.value w v) (hw : D.room k w 0) :
    D.Keeps fp w (r.defineProperty arguments) (r'.defineProperty arguments) D.value := by
  have h0 := h.law.argument_ok ha 0
  have h2 := h.law.argument_ok ha 2
  unfold Runner.defineProperty
  match argument arguments 0, h0 with
  | .primitive _, _ => exact h.law.typeError _
  | .object o, ho =>
      refine h.law.bind (h.toText (h.law.argument_ok ha 1) hw) fun key w₁ h₁ _ => ?_
      match argument arguments 2, h2 with
      | .primitive p, _ => exact h.law.bind (h.law.describe _) fun _ _ _ _ => h.law.typeError _
      | .object attributes, hattributes =>
          refine h.law.bind (h.describedProperty (h.law.value_mono h₁ hattributes)
            (h.law.room_mono h₁ hw)) fun property w₂ h₂ hp => ?_
          have ho₂ := h.law.value_mono h₂ (h.law.value_mono h₁ ho)
          refine h.law.bind (h.law.define key ho₂ hp) fun _ w₃ h₃ _ => ?_
          exact h.law.pure (h.law.value_mono h₃ ho₂)

theorem functionCall (hr : D.value w receiver) (ha : ∀ v ∈ arguments, D.value w v)
    (hw : D.room k w 0) :
    D.Keeps fp w (r.functionCall receiver arguments) (r'.functionCall receiver arguments)
      D.value :=
  h.call hr (h.law.argument_ok ha 0) (fun v hv => ha v (List.mem_of_mem_drop hv)) hw

theorem functionApply (hr : D.value w receiver) (ha : ∀ v ∈ arguments, D.value w v)
    (hw : D.room k w 0) :
    D.Keeps fp w (r.functionApply receiver arguments) (r'.functionApply receiver arguments)
      D.value := by
  have hlist := h.law.argument_ok ha 1
  have calls {w' : D.World} {values : List Value} (hreach : D.reaches fp w w')
      (hv : ∀ v ∈ values, D.value w' v) :
      D.Keeps fp w' (r.call receiver (argument arguments 0) values)
        (r'.call receiver (argument arguments 0) values) D.value :=
    h.call (h.law.value_mono hreach hr) (h.law.value_mono hreach (h.law.argument_ok ha 0)) hv
      (h.law.room_mono hreach hw)
  unfold Runner.functionApply
  match argument arguments 1, hlist with
  | .object o, ho => exact h.law.bind (h.arrayLike ho hw) fun _ _ h₁ hv => calls h₁ hv
  | .primitive p, _ =>
      exact .ite (fun _ => calls (h.law.refl fp w) fun v hv => nomatch hv) fun _ =>
        h.law.typeError _

theorem stringConstructor (ha : ∀ v ∈ arguments, D.value w v)
    (ht : ∀ o, target = some o → D.target w o) (hfp : fp.target = target)
    (hw : D.room k w 0) :
    D.Keeps fp w (r.stringConstructor arguments target) (r'.stringConstructor arguments target)
      D.value := by
  refine .ite (fun _ => h.law.boxOrAnswer rfl ht hfp) fun _ => ?_
  refine h.law.bind (h.toText (h.law.argument_ok ha 0) hw) fun _ w' hw' _ => ?_
  exact h.law.boxOrAnswer rfl (fun o ho => h.law.target_mono hw' (ht o ho)) hfp

theorem numberConstructor (ha : ∀ v ∈ arguments, D.value w v)
    (ht : ∀ o, target = some o → D.target w o) (hfp : fp.target = target)
    (hw : D.room k w 0) :
    D.Keeps fp w (r.numberConstructor arguments target) (r'.numberConstructor arguments target)
      D.value := by
  refine .ite (fun _ => h.law.boxOrAnswer rfl ht hfp) fun _ => ?_
  refine h.law.bind (h.toNumber (h.law.argument_ok ha 0) hw) fun _ w' hw' _ => ?_
  exact h.law.boxOrAnswer rfl (fun o ho => h.law.target_mono hw' (ht o ho)) hfp

theorem numberToString (receiver : Value) (ha : ∀ v ∈ arguments, D.value w v)
    (hw : D.room k w 0) :
    D.Keeps fp w (r.numberToString receiver arguments) (r'.numberToString receiver arguments)
      D.value := by
  refine h.law.bind (h.law.thisPrimitive _ _ receiver) fun x w₁ h₁ _ => ?_
  have text {w' : D.World} (radix : Float) :
      D.Keeps fp w' (Runner.radixTextOf x radix) (Runner.radixTextOf x radix) D.value :=
    .ite (fun _ => .ite (fun _ => h.law.pure (h.law.primitive_ok w' _)) fun _ =>
      h.law.pure (h.law.primitive_ok w' _)) fun _ => h.law.fail (h.law.fault_rangeError w' _)
  refine .ite (fun _ => text 10) fun _ => ?_
  refine h.law.bind (h.toNumber (h.law.value_mono h₁ (h.law.argument_ok ha 0))
    (h.law.room_mono h₁ hw)) fun wanted w₂ _ _ => text _

theorem messageText {given : Value} (hg : D.value w given) (hw : D.room k w 0) :
    D.Keeps fp w (r.messageText given) (r'.messageText given) fun _ _ => True :=
  .ite (fun _ => h.law.pure trivial) fun _ =>
    h.law.bind (h.toText hg hw) fun _ _ _ _ => h.law.pure trivial

theorem errorConstructor (kind : ErrorKind) (ha : ∀ v ∈ arguments, D.value w v)
    (ht : ∀ o, target = some o → D.target w o) (hw : D.room k w 0) :
    D.Keeps fp w (r.errorConstructor kind arguments target)
      (r'.errorConstructor kind arguments target) D.value := by
  refine h.law.bind (h.messageText (h.law.argument_ok ha 0) hw) fun message w₁ h₁ _ => ?_
  cases target with
  | none => exact h.law.bind (h.law.createError kind _) fun _ _ _ ho => h.law.pure ho
  | some error =>
      have he := h.law.value_mono h₁ (h.law.target_value (ht error rfl))
      refine h.law.bind (h.law.fillError kind message he) fun _ w₂ _ _ => ?_
      exact h.law.pure (h.law.primitive_ok w₂ _)

theorem textProperty {o : ObjectId} (key default : String) (ho : D.value w (.object o))
    (hw : D.room k w 0) :
    D.Keeps fp w (r.textProperty o key default) (r'.textProperty o key default)
      fun _ _ => True := by
  refine h.law.bind (h.readProperty key ho hw) fun v w₁ h₁ hv => ?_
  exact .ite (fun _ => h.law.pure trivial) fun _ => h.toText hv (h.law.room_mono h₁ hw)

theorem errorToString (hr : D.value w receiver) (hw : D.room k w 0) :
    D.Keeps fp w (r.errorToString receiver) (r'.errorToString receiver) D.value := by
  cases receiver with
  | primitive p => exact h.law.typeError _
  | object o =>
      refine h.law.bind (h.textProperty "name" "Error" hr hw) fun _ w₁ h₁ _ => ?_
      refine h.law.bind (h.textProperty "message" "" (h.law.value_mono h₁ hr)
        (h.law.room_mono h₁ hw)) fun _ w₂ _ _ => ?_
      exact h.law.pure (h.law.primitive_ok w₂ _)

theorem toTexts (ha : ∀ v ∈ arguments, D.value w v) (hw : D.room k w 0) :
    D.Keeps fp w (r.toTexts arguments) (r'.toTexts arguments) fun _ _ => True := by
  induction arguments generalizing w with
  | nil => exact h.law.pure trivial
  | cons v rest ih =>
      refine h.law.bind (h.toText (ha v List.mem_cons_self) hw) fun text w₁ h₁ _ => ?_
      have hrest := h.law.values_mono h₁ fun v hv => ha v (List.mem_cons_of_mem _ hv)
      exact h.law.bind (ih hrest (h.law.room_mono h₁ hw)) fun _ _ _ _ => h.law.pure trivial

theorem printValues (level : Level) (ha : ∀ v ∈ arguments, D.value w v) (hw : D.room k w 0) :
    D.Keeps fp w (r.printValues level arguments) (r'.printValues level arguments) D.value := by
  refine h.law.bind (h.toTexts ha hw) fun texts w₁ _ _ => ?_
  refine h.law.bind (h.law.widen (h.agree.print w₁ level _)) fun _ w₂ _ _ => ?_
  exact h.law.pure (h.law.primitive_ok w₂ _)

theorem runBuiltin {builtin : Builtin} (hb : D.builtin builtin) (hr : D.value w receiver)
    (ha : ∀ v ∈ arguments, D.value w v) (ht : ∀ o, target = some o → D.target w o)
    (hfp : fp.target = target) (hw : D.room k w 0) :
    D.Keeps fp w (r.runBuiltin builtin receiver arguments target)
      (r'.runBuiltin builtin receiver arguments target) D.value := by
  have law := h.law
  have prim (w' : D.World) (p : Primitive) : D.value w' (.primitive p) := law.primitive_ok w' p
  have reads {α : Type} (name : String) (pick? : Primitive → Option α) (answer : α → Primitive) :
      D.Keeps fp w (do return .primitive (answer (← Eval.thisPrimitive name pick? receiver)))
        (do return .primitive (answer (← Eval.thisPrimitive name pick? receiver))) D.value :=
    law.bind (law.thisPrimitive name pick? receiver) fun _ w' _ _ => law.pure (prim w' _)
  cases builtin with
  | objectConstructor => exact law.objectConstructor target ha
  | hasOwnProperty => exact h.hasOwnProperty receiver ha hw
  | objectToString => exact law.objectToString receiver
  | objectValueOf => exact law.objectValueOf hr
  | objectCreate => exact law.objectCreate ha
  | getPrototypeOf => exact law.getPrototypeOf ha
  | defineProperty => exact h.defineProperty ha hw
  | functionConstructor => exact law.internalFault (law.fault_functionConstructor w hb)
  | functionCall => exact h.functionCall hr ha hw
  | functionApply => exact h.functionApply hr ha hw
  | arrayConstructor => exact law.pure (prim w _)
  | stringConstructor => exact h.stringConstructor ha ht hfp hw
  | stringToString => exact reads _ _ _
  | stringValueOf => exact reads _ _ _
  | numberConstructor => exact h.numberConstructor ha ht hfp hw
  | numberToString => exact h.numberToString receiver ha hw
  | numberValueOf => exact reads _ _ _
  | booleanConstructor => exact law.boxOrAnswer rfl ht hfp
  | booleanToString => exact reads _ _ _
  | booleanValueOf => exact reads _ _ _
  | symbolConstructor => exact law.pure (prim w _)
  | errorConstructor kind => exact h.errorConstructor kind ha ht hw
  | errorToString => exact h.errorToString hr hw
  | print level => exact h.printValues level ha hw

end Library

/-! ## Calls -/

theorem enter {callable : Callable} {receiver : Value} {arguments : List Value}
    {target : Option ObjectId} (hc : D.callable w callable) (hr : D.value w receiver)
    (ha : ∀ v ∈ arguments, D.value w v) (ht : ∀ o, target = some o → D.target w o)
    (hfp : fp.target = target) (hw : D.room k w 0) (room : ∀ n, D.fits n → D.room k w n) :
    D.Keeps fp w (r.enter callable receiver arguments target)
      (r'.enter callable receiver arguments target) D.value := by
  cases callable with
  | closure c => exact h.invoke hc hr ha room
  | builtin b => exact h.runBuiltin hc hr ha ht hfp hw
  | host f =>
      refine h.law.bind h.law.trace fun _ w' hreach _ => ?_
      exact h.law.hostFunction (h.law.value_mono hreach hr) (h.law.values_mono hreach ha)

/-- A call is allowed alike when the limit is checked alike. -/
theorem allowBy {check check' : Eval Unit}
    (checks : ∀ w, D.Keeps .nothing w check check' fun w' _ => D.mayEnter w') (callee : Value)
    (target : Option ObjectId) :
    D.Keeps fp w (r.allowBy check callee target) (r'.allowBy check' callee target)
      fun w' callable => D.callable w' callable ∧ D.mayEnter w' := by
  refine h.law.bind (h.law.resolve callee) fun callable w₁ _ hc => ?_
  refine .ite (fun _ => ?_) fun _ => ?_
  · exact h.law.bind (h.law.describe callee) fun _ _ _ _ => h.law.typeError _
  · refine h.law.bind (h.law.widen (h.agree.checkTimeout w₁)) fun _ w₂ h₂ _ => ?_
    refine h.law.bind (h.law.widen (checks w₂)) fun _ w₃ h₃ may => ?_
    exact h.law.pure ⟨h.law.callable_mono h₃ (h.law.callable_mono h₂ hc), may⟩

theorem allow (agree : D.Agree r.settings r'.settings) (callee : Value)
    (target : Option ObjectId) :
    D.Keeps fp w (r.allow callee target) (r'.allow callee target) fun w' callable =>
      D.callable w' callable ∧ D.mayEnter w' :=
  h.allowBy agree.checkDepth callee target

end Matches

end Discipline

end ScriptTree
