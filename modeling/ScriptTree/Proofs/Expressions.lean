import ScriptTree.Proofs.Operators

/-!
# Expressions keep a discipline

One rule for each definition that evaluates a part of an expression, up to `evaluate` itself.  A
part has to pass the checks and there has to be room for it; sub-expressions are tasks of their own.
-/

namespace ScriptTree

/-- What is no function need not be fit for a getter or a setter. -/
theorem Discipline.Keeps.plain {D : Discipline} {fp : Footprint} {w : D.World} {x y : Eval Value}
    {e : Expr} {s : ScopeId} (hf : e.isFunction = false) (hx : D.Keeps fp w x y D.value) :
    D.Keeps fp w x y (D.Answers (.eval e s)) := by
  refine hx.post fun w' v _ hv => ⟨hv, fun ht => ?_⟩
  rw [hf] at ht
  cases ht

namespace Discipline.Matches

variable {D : Discipline} {k : Nat} {r r' : Runner} (h : D.Matches k r r') {fp : Footprint}
  {w : D.World} {s : ScopeId}
include h

theorem eval {e : Expr} (he : D.Fits k w (e.all D.checks) (sizeOf e)) (hs : D.scope w s) :
    D.Keeps fp w (r.eval s e) (r'.eval s e) D.value :=
  (h.law.widen (h.run (.eval e s) w ⟨he, hs⟩)).post fun _ _ _ hv => hv.1

/-- What is written as a function can be a getter or a setter. -/
theorem evalAccessor {e : Expr} (he : D.Fits k w (e.all D.checks) (sizeOf e)) (hs : D.scope w s)
    (hf : (∀ w v, D.value w v → D.slot w v) ∨ e.isFunction = true) :
    D.Keeps fp w (r.eval s e) (r'.eval s e) D.slot := by
  refine (h.law.widen (h.run (.eval e s) w ⟨he, hs⟩)).post fun w' v _ hv => ?_
  rcases hf with any | hf
  · exact any w' v hv.1
  · exact hv.2 hf

/-! ## Lists of expressions -/

theorem evalArgument {e : Expr} (he : D.Fits k w (e.allArgument D.checks) (sizeOf e))
    (hs : D.scope w s) :
    D.Keeps fp w (r.evalArgument s e) (r'.evalArgument s e) fun w' values =>
      ∀ v ∈ values, D.value w' v := by
  cases e with
  | spread source =>
      have hsource : D.Fits k w (source.all D.checks) (sizeOf source) :=
        he.part h.law id (by simp +arith)
      refine h.law.bind (h.eval hsource hs) fun v w' hw hv => ?_
      exact h.arrayLike hv (h.law.room_mono hw (he.calls h.law))
  | _ =>
      refine h.law.bind (h.eval he hs) fun v w' _ hv => h.law.pure fun v' hmem => ?_
      cases List.mem_singleton.mp hmem
      exact hv

theorem append_ok {w w' : D.World} {values rest : List Value} (hw : D.reaches fp w w')
    (hv : ∀ v ∈ values, D.value w v) (hr : ∀ v ∈ rest, D.value w' v) :
    ∀ v ∈ values ++ rest, D.value w' v := by
  intro v hmem
  rcases List.mem_append.mp hmem with hmem | hmem
  · exact h.law.value_mono hw (hv v hmem)
  · exact hr v hmem

theorem evalArguments {es : List Expr} (he : D.Fits k w (allArguments D.checks es) (sizeOf es))
    (hs : D.scope w s) :
    D.Keeps fp w (r.evalArguments s es) (r'.evalArguments s es) fun w' values =>
      ∀ v ∈ values, D.value w' v := by
  induction es generalizing w with
  | nil => exact h.law.pure fun v hv => nomatch hv
  | cons e rest ih =>
      have hfirst : D.Fits k w (e.allArgument D.checks) (sizeOf e) :=
        he.part h.law (by simp +contextual) (by simp +arith)
      have hrest : D.Fits k w (allArguments D.checks rest) (sizeOf rest) :=
        he.part h.law (by simp +contextual) (by simp +arith)
      refine h.law.bind (h.evalArgument hfirst hs) fun values w₁ h₁ hv => ?_
      refine h.law.bind (ih (hrest.mono h.law h₁) (h.law.scope_mono h₁ hs)) fun _ w₂ h₂ hr => ?_
      exact h.law.pure (h.append_ok h₂ hv hr)

theorem evalElements {es : List (Option Expr)}
    (he : D.Fits k w (allElements D.checks es) (sizeOf es)) (hs : D.scope w s) :
    D.Keeps fp w (r.evalElements s es) (r'.evalElements s es) fun w' values =>
      ∀ v ∈ values, D.value w' v := by
  induction es generalizing w with
  | nil => exact h.law.pure fun v hv => nomatch hv
  | cons first rest ih =>
      cases first with
      | none =>
          have hrest : D.Fits k w (allElements D.checks rest) (sizeOf rest) :=
            he.part h.law id (by simp +arith)
          refine h.law.bind (ih hrest hs) fun values w' _ hv => h.law.pure fun v hmem => ?_
          rcases List.mem_cons.mp hmem with rfl | hmem
          · exact h.law.primitive_ok w' _
          · exact hv v hmem
      | some e =>
          have hfirst : D.Fits k w (e.allArgument D.checks) (sizeOf e) :=
            he.part h.law (by simp +contextual) (by simp +arith)
          have hrest : D.Fits k w (allElements D.checks rest) (sizeOf rest) :=
            he.part h.law (by simp +contextual) (by simp +arith)
          refine h.law.bind (h.evalArgument hfirst hs) fun values w₁ h₁ hv => ?_
          refine h.law.bind (ih (hrest.mono h.law h₁) (h.law.scope_mono h₁ hs)) ?_
          exact fun _ w₂ h₂ hr => h.law.pure (h.append_ok h₂ hv hr)

theorem evalSequence {es : List Expr} {last : Value}
    (he : D.Fits k w (allExprs D.checks es) (sizeOf es)) (hs : D.scope w s)
    (hv : D.value w last) :
    D.Keeps fp w (r.evalSequence s last es) (r'.evalSequence s last es) D.value := by
  induction es generalizing w last with
  | nil => exact h.law.pure hv
  | cons e rest ih =>
      have hfirst : D.Fits k w (e.all D.checks) (sizeOf e) :=
        he.part h.law (by simp +contextual) (by simp +arith)
      have hrest : D.Fits k w (allExprs D.checks rest) (sizeOf rest) :=
        he.part h.law (by simp +contextual) (by simp +arith)
      refine h.law.bind (h.eval hfirst hs) fun v w' hw hv => ?_
      exact ih (hrest.mono h.law hw) (h.law.scope_mono hw hs) hv

theorem evalTemplate {quasis : List Quasi} {es : List Expr} (text : String)
    (he : D.Fits k w (allExprs D.checks es) (sizeOf es)) (hs : D.scope w s) :
    D.Keeps fp w (r.evalTemplate s text quasis es) (r'.evalTemplate s text quasis es)
      D.value := by
  -- the recursion is on the pieces of text; values that are left over are not evaluated
  induction quasis generalizing w text es with
  | nil => exact h.law.pure (h.law.primitive_ok w _)
  | cons quasi quasis ih =>
      unfold Runner.evalTemplate
      refine .ite (fun _ => h.law.pure (h.law.primitive_ok w _)) fun _ => ?_
      cases es with
      | nil => exact ih _ he hs
      | cons e rest =>
          have hfirst : D.Fits k w (e.all D.checks) (sizeOf e) :=
            he.part h.law (by simp +contextual) (by simp +arith)
          have hrest : D.Fits k w (allExprs D.checks rest) (sizeOf rest) :=
            he.part h.law (by simp +contextual) (by simp +arith)
          refine h.law.bind (h.eval hfirst hs) fun v w₁ h₁ hv => ?_
          have hrest₁ := hrest.mono h.law h₁
          refine h.law.bind (h.toText hv (hrest₁.calls h.law)) fun _ w₂ h₂ _ => ?_
          exact ih _ (hrest₁.mono h.law h₂) (h.law.scope_mono h₂ (h.law.scope_mono h₁ hs))

/-! ## Member access and calls -/

theorem accessKey {property : Expr} {computed : Bool}
    (hp : D.Fits k w (!computed || property.all D.checks) (sizeOf property)) (hs : D.scope w s)
    (hk : D.checks.Refines .supported → (computed || property.isIdent) = true) :
    D.Keeps fp w (r.accessKey s property computed) (r'.accessKey s property computed)
      fun _ _ => True := by
  cases computed with
  | true =>
      refine h.law.bind (h.eval hp hs) fun v w' hw hv => ?_
      exact h.toText hv (h.law.room_mono hw (hp.calls h.law))
  | false =>
      cases property with
      | ident name => exact h.law.pure trivial
      | _ => exact h.law.unsupported fun refines => nomatch hk refines

/-- The object and the key of a member access, in this order. -/
theorem place {β : Type} {P : D.World → β → Prop} {f g : Value → String → Eval β}
    {e e' : Expr} {computed : Bool} {n : Nat}
    (he : D.Fits k w (e.all D.checks && (!computed || e'.all D.checks)) n)
    (hn : sizeOf e + sizeOf e' ≤ n) (hs : D.scope w s)
    (hk : D.checks.Refines .supported → (computed || e'.isIdent) = true)
    (next : ∀ v key w', D.reaches fp w w' → D.value w' v → D.room k w' 0 →
      D.Keeps fp w' (f v key) (g v key) P) :
    D.Keeps fp w
      (do
        let v ← r.eval s e
        let key ← r.accessKey s e' computed
        f v key)
      (do
        let v ← r'.eval s e
        let key ← r'.accessKey s e' computed
        g v key) P := by
  have hobject : D.Fits k w (e.all D.checks) (sizeOf e) :=
    he.part h.law (by simp +contextual) (by omega)
  have hkey : D.Fits k w (!computed || e'.all D.checks) (sizeOf e') :=
    he.part h.law (by simp +contextual) (by omega)
  refine h.law.bind (h.eval hobject hs) fun v w₁ h₁ hv => ?_
  have hkey₁ := hkey.mono h.law h₁
  refine h.law.bind (h.accessKey hkey₁ (h.law.scope_mono h₁ hs) hk) fun key w₂ h₂ _ => ?_
  exact next v key w₂ (h.law.trans h₁ h₂) (h.law.value_mono h₂ hv)
    (h.law.room_mono h₂ (hkey₁.calls h.law))

theorem evalCallee {callee : Expr} (he : D.Fits k w (callee.all D.checks) (sizeOf callee))
    (hs : D.scope w s) :
    D.Keeps fp w (r.evalCallee s callee) (r'.evalCallee s callee) fun w' pair =>
      D.value w' pair.1 ∧ D.value w' pair.2 := by
  cases callee with
  | access object property computed =>
      refine h.place (he.access h.law) (by simp +arith) hs (·.key_of_access he.passes) ?_
      intro v key w' hw hv hroom
      refine h.law.bind (h.getProperty key hv hroom) fun function w'' hw' hf => ?_
      exact h.law.pure ⟨hf, h.law.value_mono hw' hv⟩
  | _ =>
      refine h.law.bind (h.eval he hs) fun function w' _ hf => ?_
      exact h.law.pure ⟨hf, h.law.primitive_ok w' _⟩

theorem evalCall {callee : Expr} {arguments : List Expr}
    (hc : D.Fits k w (callee.all D.checks) (sizeOf callee))
    (ha : D.Fits k w (allArguments D.checks arguments) (sizeOf arguments)) (hs : D.scope w s) :
    D.Keeps fp w (r.evalCall s callee arguments) (r'.evalCall s callee arguments) D.value := by
  refine h.law.bind (h.evalCallee hc hs) fun ⟨function, receiver⟩ w₁ h₁ ⟨hf, hr⟩ => ?_
  have ha₁ := ha.mono h.law h₁
  refine h.law.bind (h.evalArguments ha₁ (h.law.scope_mono h₁ hs)) fun values w₂ h₂ hv => ?_
  exact h.call (h.law.value_mono h₂ hf) (h.law.value_mono h₂ hr) hv
    (h.law.room_mono h₂ (ha₁.calls h.law))

theorem evalConstruct {callee : Expr} {arguments : List Expr}
    (hc : D.Fits k w (callee.all D.checks) (sizeOf callee))
    (ha : D.Fits k w (allArguments D.checks arguments) (sizeOf arguments)) (hs : D.scope w s) :
    D.Keeps fp w (r.evalConstruct s callee arguments) (r'.evalConstruct s callee arguments)
      D.value := by
  refine h.law.bind (h.eval hc hs) fun constructor w₁ h₁ hv => ?_
  have ha₁ := ha.mono h.law h₁
  refine h.law.bind (h.evalArguments ha₁ (h.law.scope_mono h₁ hs)) fun values w₂ h₂ hvs => ?_
  have hw₂ := h.law.room_mono h₂ (ha₁.calls h.law)
  refine h.law.bind (h.construct (h.law.value_mono h₂ hv) hvs (fun _ ht => nomatch ht) hw₂) ?_
  exact fun _ _ _ ho => h.law.pure ho

/-! ## Names -/

theorem evalNamed {e : Expr} (name : String) (he : D.Fits k w (e.all D.checks) (sizeOf e))
    (hs : D.scope w s) :
    D.Keeps fp w (r.evalNamed s name e) (r'.evalNamed s name e) D.value := by
  have instantiates (isArrow : Bool) {code : FunctionCode}
      (hc : D.Fits k w (code.all D.checks) (sizeOf code)) :
      D.Keeps fp w (Eval.instantiate s code isArrow (some name))
        (Eval.instantiate s code isArrow (some name)) D.value :=
    (h.law.instantiate isArrow _ hs (hc.code h.law)).post fun _ _ _ => h.law.slot_value
  cases e with
  | function code =>
      refine .ite (fun _ => ?_) fun _ => h.eval he hs
      exact instantiates false (he.part h.law (by simp +contextual) (by simp +arith))
  | arrow code =>
      exact instantiates true (he.part h.law (by simp +contextual) (by simp +arith))
  | _ => exact h.eval he hs

/-! ## Object literals -/

theorem copyEntries {source target : ObjectId} {entries : List (String × Property)}
    (he : ∀ entry ∈ entries, D.property w entry.2) (hs : D.value w (.object source))
    (ht : D.value w (.object target)) (hw : D.room k w 0) :
    D.Keeps fp w (r.copyEntries source target entries) (r'.copyEntries source target entries)
      fun _ _ => True := by
  induction entries generalizing w with
  | nil => exact h.law.pure trivial
  | cons entry rest ih =>
      obtain ⟨key, property⟩ := entry
      -- the value is at hand or a getter gives it; the rest is the same
      have copies {value : Value} {w₁ : D.World} (h₁ : D.reaches fp w w₁)
          (hv : D.value w₁ value) :
          D.Keeps fp w₁ (Eval.define target key (.writable value) >>= fun _ =>
              r.copyEntries source target rest)
            (Eval.define target key (.writable value) >>= fun _ =>
              r'.copyEntries source target rest) fun _ _ => True := by
        refine h.law.bind (h.law.define key (h.law.value_mono h₁ ht) hv) fun _ w₂ h₂ _ => ?_
        have h₃ := h.law.trans h₁ h₂
        refine ih ?_ (h.law.value_mono h₃ hs) (h.law.value_mono h₃ ht) (h.law.room_mono h₃ hw)
        exact fun entry hmem => h.law.property_mono h₃ (he entry (List.mem_cons_of_mem _ hmem))
      cases property with
      | data value _ => exact copies (h.law.refl fp w) (he _ List.mem_cons_self)
      | accessor getter setter =>
          exact h.law.bind (h.readProperty key hs hw) fun _ _ h₁ hv => copies h₁ hv

theorem copyProperties {source : Value} {target : ObjectId} (hs : D.value w source)
    (ht : D.value w (.object target)) (hw : D.room k w 0) :
    D.Keeps fp w (r.copyProperties source target) (r'.copyProperties source target)
      fun _ _ => True := by
  match source with
  | .object o =>
      refine h.law.bind (h.law.object o) fun found w' hreach hfound => ?_
      subst hfound
      exact h.copyEntries h.law.entries_ok (h.law.value_mono hreach hs)
        (h.law.value_mono hreach ht) (h.law.room_mono hreach hw)
  | .string text =>
      refine h.law.bind (h.arrayLike hs hw) fun values w' hreach hv => ?_
      exact h.law.defineIndexed 0 (h.law.value_mono hreach ht) hv
  | .undefined | .null | .bool _ | .number _ => exact h.law.pure trivial

theorem memberKey {key : Expr} {computed : Bool}
    (hp : D.Fits k w (!computed || key.all D.checks) (sizeOf key)) (hs : D.scope w s)
    (hk : D.checks.Refines .supported → (computed || key.isKey) = true) :
    D.Keeps fp w (r.memberKey s key computed) (r'.memberKey s key computed)
      fun _ _ => True := by
  cases computed with
  | true =>
      refine h.law.bind (h.eval hp hs) fun v w' hw hv => ?_
      exact h.toText hv (h.law.room_mono hw (hp.calls h.law))
  | false =>
      cases key with
      | ident name => exact h.law.pure trivial
      | literal l =>
          obtain ⟨value, regex, bigint⟩ := l
          cases value with
          | string text => exact h.law.pure trivial
          | number x => exact h.law.pure trivial
          | _ => exact h.law.unsupported fun refines => nomatch hk refines
      | _ => exact h.law.unsupported fun refines => nomatch hk refines

theorem defineMember {target : ObjectId} {member : Member}
    (hm : D.Fits k w (member.all D.checks) (sizeOf member)) (hs : D.scope w s)
    (ht : D.target w target)
    (supported : D.checks.Refines .supported → member.isSupported = true)
    (accessors : (∀ w v, D.value w v → D.slot w v) ∨ member.accessorIsFunction = true) :
    D.Keeps fp w (r.defineMember s target member) (r'.defineMember s target member)
      fun _ _ => True := by
  cases member with
  | unsupported => exact h.law.unsupported fun refines => nomatch supported refines
  | spread source =>
      have hsource : D.Fits k w (source.all D.checks) (sizeOf source) :=
        hm.part h.law (by simp +contextual) (by simp +arith)
      refine h.law.bind (h.eval hsource hs) fun v w' hw hv => ?_
      exact h.copyProperties hv (h.law.target_value (h.law.target_mono hw ht))
        (h.law.room_mono hw (hm.calls h.law))
  | property key value kind computed _ _ =>
      have hkey : D.Fits k w (!computed || key.all D.checks) (sizeOf key) :=
        hm.part h.law (by simp +contextual) (by simp +arith)
      have hvalue : D.Fits k w (value.all D.checks) (sizeOf value) :=
        hm.part h.law (by simp +contextual) (by simp +arith)
      refine h.law.bind (h.memberKey hkey hs supported) fun text w' hw _ => ?_
      have hvalue' := hvalue.mono h.law hw
      have hs' := h.law.scope_mono hw hs
      have ht' := h.law.target_mono hw ht
      cases kind with
      | init =>
          refine h.law.bind (h.evalNamed text hvalue' hs') fun v w'' hw' hv => ?_
          exact h.law.define text (h.law.target_value (h.law.target_mono hw' ht')) hv
      | getter =>
          refine h.law.bind (h.evalAccessor hvalue' hs' accessors) fun v w'' hw' hv => ?_
          exact h.law.defineAccessor text true (h.law.target_mono hw' ht') hv
      | setter =>
          refine h.law.bind (h.evalAccessor hvalue' hs' accessors) fun v w'' hw' hv => ?_
          exact h.law.defineAccessor text false (h.law.target_mono hw' ht') hv

theorem defineMembers {target : ObjectId} {members : List Member}
    (hm : D.Fits k w (allMembers D.checks members) (sizeOf members)) (hs : D.scope w s)
    (ht : D.target w target)
    (supported : D.checks.Refines .supported → members.all Member.isSupported = true)
    (accessors : (∀ w v, D.value w v → D.slot w v) ∨
      members.all Member.accessorIsFunction = true) :
    D.Keeps fp w (r.defineMembers s target members) (r'.defineMembers s target members)
      fun _ _ => True := by
  induction members generalizing w with
  | nil => exact h.law.pure trivial
  | cons member rest ih =>
      have hfirst : D.Fits k w (member.all D.checks) (sizeOf member) :=
        hm.part h.law (by simp +contextual) (by simp +arith)
      have hrest : D.Fits k w (allMembers D.checks rest) (sizeOf rest) :=
        hm.part h.law (by simp +contextual) (by simp +arith)
      rw [List.all_cons, Bool.and_eq_true] at supported accessors
      refine h.law.bind (h.defineMember hfirst hs ht (fun refines => (supported refines).1)
        (accessors.imp_right And.left)) fun _ w' hw _ => ?_
      exact ih (hrest.mono h.law hw) (h.law.scope_mono hw hs) (h.law.target_mono hw ht)
        (fun refines => (supported refines).2) (accessors.imp_right And.right)

/-! ## Assignments -/

theorem evalDelete {e : Expr} (he : D.Fits k w (e.all D.checks) (sizeOf e)) (hs : D.scope w s) :
    D.Keeps fp w (r.evalDelete s e) (r'.evalDelete s e) D.value := by
  cases e with
  | access object property computed =>
      refine h.place (he.access h.law) (by simp +arith) hs (·.key_of_access he.passes) ?_
      intro v key w' _ hv _
      refine h.law.bind (h.law.deleteProperty key hv) fun _ w'' _ _ => ?_
      exact h.law.pure (h.law.primitive_ok w'' _)
  | ident name => exact h.law.pure (h.law.primitive_ok w _)
  | _ =>
      refine h.law.bind (h.eval he hs) fun _ w' _ _ => ?_
      exact h.law.pure (h.law.primitive_ok w' _)

theorem evalUpdate {e : Expr} (op : UpdateOp) (givesNew : Bool)
    (he : D.Fits k w (e.all D.checks) (sizeOf e)) (hs : D.scope w s)
    (supported : D.checks.Refines .supported → e.isPlace = true) :
    D.Keeps fp w (r.evalUpdate s op givesNew e) (r'.evalUpdate s op givesNew e) D.value := by
  cases e with
  | ident name =>
      refine h.law.bind (h.law.lookup s name) fun v w₁ h₁ hv => ?_
      have hw₁ := h.law.room_mono h₁ (he.calls h.law)
      refine h.law.bind (h.toNumber hv hw₁) fun old w₂ _ _ => ?_
      refine h.law.bind (h.law.writeBinding true s name (h.law.primitive_ok w₂ _)) ?_
      exact fun _ w₃ _ _ => h.law.pure (h.law.primitive_ok w₃ _)
  | access object property computed =>
      refine h.place (he.access h.law) (by simp +arith) hs (·.key_of_access he.passes) ?_
      intro v key w₁ _ hv hw₁
      refine h.law.bind (h.getProperty key hv hw₁) fun current w₂ h₂ hc => ?_
      have hw₂ := h.law.room_mono h₂ hw₁
      refine h.law.bind (h.toNumber hc hw₂) fun old w₃ h₃ _ => ?_
      have hv₃ := h.law.value_mono h₃ (h.law.value_mono h₂ hv)
      refine h.law.bind (h.setProperty key hv₃ (h.law.primitive_ok w₃ _)
        (h.law.room_mono h₃ hw₂)) fun _ w₄ _ _ => ?_
      exact h.law.pure (h.law.primitive_ok w₄ _)
  | _ => exact h.law.unsupported fun refines => nomatch supported refines

/-- The value of an assignment is the value it has written. -/
theorem assigns {x y : Eval Value} (s : ScopeId) (name : String)
    (hx : D.Keeps fp w x y D.value) :
    D.Keeps fp w
      (do
        let value ← x
        Eval.assign s name value
        return value)
      (do
        let value ← y
        Eval.assign s name value
        return value) D.value := by
  refine h.law.bind hx fun v w₁ _ hv => ?_
  refine h.law.bind (h.law.writeBinding true s name hv) fun _ w₂ h₂ _ => ?_
  exact h.law.pure (h.law.value_mono h₂ hv)

theorem assignName {e : Expr} (op : AssignOp) (name : String)
    (he : D.Fits k w (e.all D.checks) (sizeOf e)) (hs : D.scope w s) :
    D.Keeps fp w (r.assignName s op name e) (r'.assignName s op name e) D.value := by
  cases op with
  | assign => exact h.assigns s name (h.evalNamed name he hs)
  | binary op =>
      refine h.law.bind (h.law.lookup s name) fun current w₁ h₁ hc => ?_
      have he₁ := he.mono h.law h₁
      refine h.law.bind (h.eval he₁ (h.law.scope_mono h₁ hs)) fun v w₂ h₂ hv => ?_
      exact h.assigns s name (h.applyBinary op (h.law.value_mono h₂ hc) hv
        (h.law.room_mono h₂ (he₁.calls h.law)))
  | logical op =>
      refine h.law.bind (h.law.lookup s name) fun current w₁ h₁ hc => ?_
      refine .ite (fun _ => h.law.pure hc) fun _ => ?_
      exact h.assigns s name (h.evalNamed name (he.mono h.law h₁) (h.law.scope_mono h₁ hs))

/-- The same for a property. -/
theorem stores {x y : Eval Value} {object : Value} (key : String) (ho : D.value w object)
    (hw : D.room k w 0) (hx : D.Keeps fp w x y D.value) :
    D.Keeps fp w
      (do
        let value ← x
        r.setProperty object key value
        return value)
      (do
        let value ← y
        r'.setProperty object key value
        return value) D.value := by
  refine h.law.bind hx fun v w₁ h₁ hv => ?_
  refine h.law.bind (h.setProperty key (h.law.value_mono h₁ ho) hv (h.law.room_mono h₁ hw)) ?_
  exact fun _ w₂ h₂ _ => h.law.pure (h.law.value_mono h₂ hv)

theorem assignAccess {object : Value} {e : Expr} (op : AssignOp) (key : String)
    (ho : D.value w object) (he : D.Fits k w (e.all D.checks) (sizeOf e)) (hs : D.scope w s) :
    D.Keeps fp w (r.assignAccess s op object key e) (r'.assignAccess s op object key e)
      D.value := by
  have hw := he.calls h.law
  cases op with
  | assign => exact h.stores key ho hw (h.eval he hs)
  | binary op =>
      refine h.law.bind (h.getProperty key ho hw) fun current w₁ h₁ hc => ?_
      have he₁ := he.mono h.law h₁
      refine h.law.bind (h.eval he₁ (h.law.scope_mono h₁ hs)) fun v w₂ h₂ hv => ?_
      have hw₂ := h.law.room_mono h₂ (he₁.calls h.law)
      exact h.stores key (h.law.value_mono h₂ (h.law.value_mono h₁ ho)) hw₂
        (h.applyBinary op (h.law.value_mono h₂ hc) hv hw₂)
  | logical op =>
      refine h.law.bind (h.getProperty key ho hw) fun current w₁ h₁ hc => ?_
      have he₁ := he.mono h.law h₁
      refine .ite (fun _ => h.law.pure hc) fun _ => ?_
      exact h.stores key (h.law.value_mono h₁ ho) (he₁.calls h.law)
        (h.eval he₁ (h.law.scope_mono h₁ hs))

theorem evalAssign {target : Target} {e : Expr} (op : AssignOp)
    (ht : D.Fits k w (target.all D.checks) (sizeOf target))
    (he : D.Fits k w (e.all D.checks) (sizeOf e)) (hs : D.scope w s)
    (supported : D.checks.Refines .supported → target.isSupported = true) :
    D.Keeps fp w (r.evalAssign s op target e) (r'.evalAssign s op target e) D.value := by
  cases target with
  | ident name => exact h.assignName op name he hs
  | access object property computed =>
      refine h.place ht (by simp +arith) hs supported fun v key w' hw hv _ => ?_
      exact h.assignAccess op key hv (he.mono h.law hw) (h.law.scope_mono hw hs)
  | unsupported => exact h.law.unsupported fun refines => nomatch supported refines

/-! ## All expressions -/

theorem literal {l : Literal} (supported : D.checks.Refines .supported → l.isSupported = true) :
    D.Keeps fp w (Eval.literal l) (Eval.literal l) D.value := by
  obtain ⟨value, regex, bigint⟩ := l
  refine .ite (fun hr => ?_) fun _ => .ite (fun hb => ?_) fun _ => ?_
  · refine h.law.unsupported fun refines => ?_
    have := supported refines
    simp_all [Literal.isSupported]
  · refine h.law.unsupported fun refines => ?_
    have := supported refines
    simp_all [Literal.isSupported]
  · cases value with
    | other json =>
        refine h.law.unsupported fun refines => ?_
        have := supported refines
        simp [Literal.isSupported] at this
    | _ => exact h.law.pure (h.law.primitive_ok w _)

theorem evaluate {e : Expr} (he : D.Fits (k + 1) w (e.all D.checks) (sizeOf e))
    (hs : D.scope w s) :
    D.Keeps fp w (r.evaluate s e) (r'.evaluate s e) (D.Answers (.eval e s)) := by
  have law := h.law
  have supported (refines : D.checks.Refines .supported) : e.isSupported = true :=
    refines.expr e (Expr.expr_of_all he.passes)
  cases e with
  | ident name => exact .plain rfl (law.lookup s name)
  | literal l => exact .plain rfl (h.literal supported)
  | this => exact .plain rfl (law.receiver hs)
  | array elements =>
      have helements : D.Fits k w (allElements D.checks elements) (sizeOf elements) :=
        he.sub law (by simp +contextual) (by simp +arith)
      refine .plain rfl (law.bind (h.evalElements helements hs) fun values w₁ _ hv => ?_)
      exact law.bind (law.createArray hv) fun _ _ _ ho => law.pure ho
  | object members =>
      have hmembers : D.Fits k w (allMembers D.checks members) (sizeOf members) :=
        he.sub law (by simp +contextual) (by simp +arith)
      -- that getters are written as functions is a condition on the literal, not on its members
      have accessors := law.accessors.imp_right fun a => a _ (Expr.expr_of_all he.passes)
      refine .plain rfl (law.bind law.createPlain fun o w₁ h₁ ho => ?_)
      refine law.bind (h.defineMembers (hmembers.mono law h₁) (law.scope_mono h₁ hs) ho supported
        accessors) fun _ w₂ h₂ _ => ?_
      exact law.pure (law.target_value (law.target_mono h₂ ho))
  | function code =>
      have hcode : D.Fits k w (code.all D.checks) (sizeOf code) :=
        he.sub law (by simp +contextual) (by simp +arith)
      refine (law.functionExpression hs (hcode.code law)).post fun _ _ _ hv => ?_
      exact ⟨law.slot_value hv, fun _ => hv⟩
  | arrow code =>
      have hcode : D.Fits k w (code.all D.checks) (sizeOf code) :=
        he.sub law (by simp +contextual) (by simp +arith)
      refine (law.instantiate true none hs (hcode.code law)).post fun _ _ _ hv => ?_
      exact ⟨law.slot_value hv, fun _ => hv⟩
  | template quasis values =>
      have hvalues : D.Fits k w (allExprs D.checks values) (sizeOf values) :=
        he.sub law (by simp +contextual) (by simp +arith)
      exact .plain rfl (h.evalTemplate "" hvalues hs)
  | unary op argument =>
      have hargument : D.Fits k w (argument.all D.checks) (sizeOf argument) :=
        he.sub law (by simp +contextual) (by simp +arith)
      -- all operators but `delete` evaluate their operand first
      have applies (op : UnaryOp) :
          D.Keeps fp w (r.eval s argument >>= r.applyUnary op)
            (r'.eval s argument >>= r'.applyUnary op) D.value :=
        law.bind (h.eval hargument hs) fun v w₁ h₁ hv =>
          h.applyUnary op hv (law.room_mono h₁ (hargument.calls law))
      cases op with
      | delete => exact .plain rfl (h.evalDelete hargument hs)
      | _ => exact .plain rfl (applies _)
  | update op givesNew argument =>
      have hargument : D.Fits k w (argument.all D.checks) (sizeOf argument) :=
        he.sub law (by simp +contextual) (by simp +arith)
      exact .plain rfl (h.evalUpdate op givesNew hargument hs supported)
  | binary op left right =>
      have hleft : D.Fits k w (left.all D.checks) (sizeOf left) :=
        he.sub law (by simp +contextual) (by simp +arith)
      have hright : D.Fits k w (right.all D.checks) (sizeOf right) :=
        he.sub law (by simp +contextual) (by simp +arith)
      refine .plain rfl (law.bind (h.eval hleft hs) fun a w₁ h₁ ha => ?_)
      have hright₁ := hright.mono law h₁
      refine law.bind (h.eval hright₁ (law.scope_mono h₁ hs)) fun b w₂ h₂ hb => ?_
      exact h.applyBinary op (law.value_mono h₂ ha) hb (law.room_mono h₂ (hright₁.calls law))
  | logical op left right =>
      have hleft : D.Fits k w (left.all D.checks) (sizeOf left) :=
        he.sub law (by simp +contextual) (by simp +arith)
      have hright : D.Fits k w (right.all D.checks) (sizeOf right) :=
        he.sub law (by simp +contextual) (by simp +arith)
      refine .plain rfl (law.bind (h.eval hleft hs) fun a w₁ h₁ ha => ?_)
      refine .ite (fun _ => law.pure ha) fun _ => ?_
      exact h.eval (hright.mono law h₁) (law.scope_mono h₁ hs)
  | assign op target value =>
      have htarget : D.Fits k w (target.all D.checks) (sizeOf target) :=
        he.sub law (by simp +contextual) (by simp +arith)
      have hvalue : D.Fits k w (value.all D.checks) (sizeOf value) :=
        he.sub law (by simp +contextual) (by simp +arith)
      exact .plain rfl (h.evalAssign op htarget hvalue hs supported)
  | conditional test consequent alternate =>
      have htest : D.Fits k w (test.all D.checks) (sizeOf test) :=
        he.sub law (by simp +contextual) (by simp +arith)
      have hconsequent : D.Fits k w (consequent.all D.checks) (sizeOf consequent) :=
        he.sub law (by simp +contextual) (by simp +arith)
      have halternate : D.Fits k w (alternate.all D.checks) (sizeOf alternate) :=
        he.sub law (by simp +contextual) (by simp +arith)
      refine .plain rfl (law.bind (h.eval htest hs) fun v w₁ h₁ _ => ?_)
      have hs₁ := law.scope_mono h₁ hs
      exact .ite (fun _ => h.eval (hconsequent.mono law h₁) hs₁) fun _ =>
        h.eval (halternate.mono law h₁) hs₁
  | sequence items =>
      have hitems : D.Fits k w (allExprs D.checks items) (sizeOf items) :=
        he.sub law (by simp +contextual) (by simp +arith)
      exact .plain rfl (h.evalSequence hitems hs (law.primitive_ok w _))
  | access object property computed =>
      have hparts : D.Fits k w (object.all D.checks && (!computed || property.all D.checks))
          (sizeOf object + sizeOf property) :=
        he.sub law (by simp +contextual) (by simp +arith)
      refine .plain rfl (h.place hparts (Nat.le_refl _) hs supported ?_)
      exact fun v key w' _ hv hw => h.getProperty key hv hw
  | call callee arguments =>
      have hcallee : D.Fits k w (callee.all D.checks) (sizeOf callee) :=
        he.sub law (by simp +contextual) (by simp +arith)
      have harguments : D.Fits k w (allArguments D.checks arguments) (sizeOf arguments) :=
        he.sub law (by simp +contextual) (by simp +arith)
      exact .plain rfl (h.evalCall hcallee harguments hs)
  | construct callee arguments =>
      have hcallee : D.Fits k w (callee.all D.checks) (sizeOf callee) :=
        he.sub law (by simp +contextual) (by simp +arith)
      have harguments : D.Fits k w (allArguments D.checks arguments) (sizeOf arguments) :=
        he.sub law (by simp +contextual) (by simp +arith)
      exact .plain rfl (h.evalConstruct hcallee harguments hs)
  | spread source => exact law.internalFault_of fun refines => nomatch supported refines
  | unsupported => exact law.unsupported fun refines => nomatch supported refines

end Discipline.Matches

end ScriptTree
