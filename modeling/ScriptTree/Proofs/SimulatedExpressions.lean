import ScriptTree.Proofs.SimulatedValues

/-!
# Expressions in lockstep

Like expressions are evaluated alike by two runners that are a pair.  Some rules look at the form of
a part without evaluating it: whether an argument is a spread, whether a callee is a member access,
whether an assigned value is a function.  A hidden part has another form than what it hides, so each
of these rules has a case in which the first evaluation stops.
-/

namespace ScriptTree

namespace Slack

variable {L : Slack} {α : Type}

namespace Pair

open Sim (pure fail ite describe)

variable {r r' : Runner} (h : L.Pair r r') (s : ScopeId)
include h

/-! ## Lists of expressions -/

theorem evalArgument {e e' : Expr} (he : e.Like L.toVeil e') :
    L.Same (r.evalArgument s e) (r'.evalArgument s e') := by
  have evaluates := h.eval s he
  cases he.form with
  | hidden hides => exact ((h.hidden hides s).bind _).sim _
  | spread hsource => exact (h.eval s hsource).andThen fun v => h.arrayLike v
  | _ => exact evaluates.andThen fun _ => pure rfl

theorem evalArguments {es es' : List Expr} (he : likeExprs L.toVeil es es') :
    L.Same (r.evalArguments s es) (r'.evalArguments s es') := by
  induction es generalizing es' with
  | nil =>
      obtain rfl := he
      exact pure rfl
  | cons e rest ih =>
      obtain ⟨e', rest', rfl, he, hrest⟩ := he
      exact (h.evalArgument s he).andThen fun _ => (ih hrest).andThen fun _ => pure rfl

theorem evalElements {es es' : List (Option Expr)} (he : likeElements L.toVeil es es') :
    L.Same (r.evalElements s es) (r'.evalElements s es') := by
  induction es generalizing es' with
  | nil =>
      obtain rfl := he
      exact pure rfl
  | cons e rest ih =>
      cases e with
      | none =>
          obtain ⟨rest', rfl, hrest⟩ := he
          exact (ih hrest).andThen fun _ => pure rfl
      | some e =>
          obtain ⟨e', rest', rfl, he, hrest⟩ := he
          exact (h.evalArgument s he).andThen fun _ => (ih hrest).andThen fun _ => pure rfl

theorem evalSequence (last : Value) {es es' : List Expr} (he : likeExprs L.toVeil es es') :
    L.Same (r.evalSequence s last es) (r'.evalSequence s last es') := by
  induction es generalizing es' last with
  | nil =>
      obtain rfl := he
      exact pure rfl
  | cons e rest ih =>
      obtain ⟨e', rest', rfl, he, hrest⟩ := he
      exact (h.eval s he).andThen fun v => ih v hrest

theorem evalTemplate (text : String) (quasis : List Quasi) {es es' : List Expr}
    (he : likeExprs L.toVeil es es') :
    L.Same (r.evalTemplate s text quasis es) (r'.evalTemplate s text quasis es') := by
  induction quasis generalizing es es' text with
  | nil => exact pure rfl
  | cons quasi quasis ih =>
      rw [Runner.evalTemplate.eq_def, Runner.evalTemplate.eq_def]
      refine ite (fun _ => pure rfl) fun _ => ?_
      cases es with
      | nil =>
          -- There may be more texts than values: the rest are joined with nothing in between.
          have hes := he
          obtain rfl := he
          exact ih _ hes
      | cons e rest =>
          obtain ⟨e', rest', rfl, he, hrest⟩ := he
          exact (h.eval s he).andThen fun v => (h.toText v).andThen fun _ => ih _ hrest

/-! ## Member access and calls -/

theorem accessKey {e e' : Expr} (computed : Bool) (he : e.Like (L.key computed) e') :
    L.Same (r.accessKey s e computed) (r'.accessKey s e' computed) := by
  cases computed with
  | true => exact (h.eval s he).andThen fun v => h.toKey v
  | false =>
      cases he.form with
      | hidden hides => exact (Stops.unsupported hides _).sim _
      | ident name => exact pure rfl
      | _ => exact Sim.unsupported _

/-- The object and the key of a member access, and what is done with them. -/
theorem access {o o' e e' : Expr} (computed : Bool) (ho : o.Like L.toVeil o')
    (he : e.Like (L.key computed) e') {f f' : Value → String → Eval α}
    (next : ∀ v key, L.Same (f v key) (f' v key)) :
    L.Same
      (do
        let v ← r.eval s o
        let key ← r.accessKey s e computed
        f v key)
      (do
        let v ← r'.eval s o'
        let key ← r'.accessKey s e' computed
        f' v key) :=
  (h.eval s ho).andThen fun v => (h.accessKey s computed he).andThen fun key => next v key

theorem evalCallee {e e' : Expr} (he : e.Like L.toVeil e') :
    L.Same (r.evalCallee s e) (r'.evalCallee s e') := by
  have evaluates := h.eval s he
  cases he.form with
  | hidden hides => exact ((h.hidden hides s).bind _).sim _
  | access ho hkey =>
      refine h.access s _ ho hkey fun v key => ?_
      exact (h.getProperty v key).andThen fun _ => pure rfl
  | _ => exact evaluates.andThen fun _ => pure rfl

theorem evalCall {e e' : Expr} {es es' : List Expr} (he : e.Like L.toVeil e')
    (hes : likeExprs L.toVeil es es') : L.Same (r.evalCall s e es) (r'.evalCall s e' es') := by
  refine (h.evalCallee s he).andThen fun (function, receiver) => ?_
  exact (h.evalArguments s hes).andThen fun values => h.call function receiver values

theorem evalConstruct {e e' : Expr} {es es' : List Expr} (he : e.Like L.toVeil e')
    (hes : likeExprs L.toVeil es es') :
    L.Same (r.evalConstruct s e es) (r'.evalConstruct s e' es') := by
  refine (h.eval s he).andThen fun constructor => (h.evalArguments s hes).andThen fun values => ?_
  exact (h.construct constructor values none).andThen fun _ => pure rfl

/-! ## Assignments -/

theorem evalNamed (name : String) {e e' : Expr} (he : e.Like L.toVeil e') :
    L.Same (r.evalNamed s name e) (r'.evalNamed s name e') := by
  have evaluates := h.eval s he
  cases he.form with
  | hidden hides => exact (h.hidden hides s).sim _
  | function hcode =>
      rw [Runner.evalNamed, Runner.evalNamed, hcode.name]
      exact ite (fun _ => Sim.instantiate s hcode false _) fun _ => evaluates
  | arrow hcode => exact Sim.instantiate s hcode true _
  | _ => exact evaluates

theorem evalDelete {e e' : Expr} (he : e.Like L.toVeil e') :
    L.Same (r.evalDelete s e) (r'.evalDelete s e') := by
  have evaluates := h.eval s he
  cases he.form with
  -- A hidden operand is evaluated, also where what it hides is a name and would not be.
  | hidden hides => exact ((h.hidden hides s).bind _).sim _
  | access ho hkey =>
      refine h.access s _ ho hkey fun v key => ?_
      exact (Sim.deleteProperty v key).andThen fun _ => pure rfl
  | ident name => exact pure rfl
  | _ => exact evaluates.andThen fun _ => pure rfl

theorem evalUpdate (op : UpdateOp) (givesNew : Bool) {e e' : Expr} (he : e.Like L.toVeil e') :
    L.Same (r.evalUpdate s op givesNew e) (r'.evalUpdate s op givesNew e') := by
  cases he.form with
  | hidden hides => exact (Stops.unsupported hides _).sim _
  | ident name =>
      refine (Sim.lookup s name).andThen fun v => (h.toNumber v).andThen fun _ => ?_
      exact (Sim.assign s name _).andThen fun _ => pure rfl
  | access ho hkey =>
      refine h.access s _ ho hkey fun v key => ?_
      refine (h.getProperty v key).andThen fun old => (h.toNumber old).andThen fun _ => ?_
      exact (h.setProperty v key _).andThen fun _ => pure rfl
  | _ => exact Sim.unsupported _

theorem assignName (op : AssignOp) (name : String) {e e' : Expr} (he : e.Like L.toVeil e') :
    L.Same (r.assignName s op name e) (r'.assignName s op name e') := by
  have assigns (v : Value) : L.Same (Eval.assign s name v >>= fun _ => Pure.pure v)
      (Eval.assign s name v >>= fun _ => Pure.pure v) :=
    (Sim.assign s name v).andThen fun _ => pure rfl
  cases op with
  | assign => exact (h.evalNamed s name he).andThen assigns
  | binary op =>
      refine (Sim.lookup s name).andThen fun current => (h.eval s he).andThen fun v => ?_
      exact (h.applyBinary op current v).andThen assigns
  | logical op =>
      refine (Sim.lookup s name).andThen fun current => ite (fun _ => pure rfl) fun _ => ?_
      exact (h.evalNamed s name he).andThen assigns

theorem assignAccess (op : AssignOp) (o : Value) (key : String) {e e' : Expr}
    (he : e.Like L.toVeil e') :
    L.Same (r.assignAccess s op o key e) (r'.assignAccess s op o key e') := by
  have assigns (v : Value) : L.Same (r.setProperty o key v >>= fun _ => Pure.pure v)
      (r'.setProperty o key v >>= fun _ => Pure.pure v) :=
    (h.setProperty o key v).andThen fun _ => pure rfl
  cases op with
  | assign => exact (h.eval s he).andThen assigns
  | binary op =>
      refine (h.getProperty o key).andThen fun current => (h.eval s he).andThen fun v => ?_
      exact (h.applyBinary op current v).andThen assigns
  | logical op =>
      refine (h.getProperty o key).andThen fun current => ite (fun _ => pure rfl) fun _ => ?_
      exact (h.eval s he).andThen assigns

theorem evalAssign (op : AssignOp) {t t' : Target} {e e' : Expr} (ht : t.Like L.toVeil t')
    (he : e.Like L.toVeil e') :
    L.Same (r.evalAssign s op t e) (r'.evalAssign s op t' e') := by
  cases t with
  | ident name =>
      obtain rfl := ht
      exact h.assignName s op name he
  | access o key computed =>
      obtain ⟨o', key', rfl, ho, hkey⟩ := ht
      exact h.access s computed ho hkey fun v key => h.assignAccess s op v key he
  | unsupported =>
      obtain rfl := ht
      exact Sim.unsupported _

/-! ## Object literals -/

omit h s in
theorem defineIndexed (target : ObjectId) (values : List Value) (index : Nat) :
    L.Same (Eval.defineIndexed target index values) (Eval.defineIndexed target index values) := by
  induction values generalizing index with
  | nil => exact pure rfl
  | cons v rest ih => exact (Sim.define _ _ _).andThen fun _ => ih _

omit h s in
theorem defineAccessor (target : ObjectId) (key : String) (isGetter : Bool) (function : Value) :
    L.Same (Eval.defineAccessor target key isGetter function)
      (Eval.defineAccessor target key isGetter function) := by
  refine (Sim.object target).bind fun _ _ like => ?_
  rw [like.own? key]
  exact Sim.define _ _ _

omit s in
theorem copyEntries (source target : ObjectId) (entries : List (String × Property)) :
    L.Same (r.copyEntries source target entries) (r'.copyEntries source target entries) := by
  induction entries with
  | nil => exact pure rfl
  | cons entry rest ih =>
      obtain ⟨key, property⟩ := entry
      cases property with
      | data value writable => exact (Sim.define _ _ _).andThen fun _ => ih
      | accessor getter setter =>
          exact (h.readProperty source key _).andThen fun _ =>
            (Sim.define _ _ _).andThen fun _ => ih

omit s in
theorem copyProperties (source : Value) (target : ObjectId) :
    L.Same (r.copyProperties source target) (r'.copyProperties source target) := by
  match source with
  | .object o =>
      refine (Sim.object o).bind fun _ _ like => ?_
      rw [like.properties]
      exact h.copyEntries o target _
  | .string _ => exact (h.arrayLike _).andThen fun values => defineIndexed target values 0
  | .undefined | .null | .bool _ | .number _ => exact pure rfl

theorem memberKey {e e' : Expr} (computed : Bool) (he : e.Like (L.key computed) e') :
    L.Same (r.memberKey s e computed) (r'.memberKey s e' computed) := by
  cases computed with
  | true => exact (h.eval s he).andThen fun v => h.toKey v
  | false =>
      cases he.form with
      | hidden hides => exact (Stops.unsupported hides _).sim _
      | ident name => exact pure rfl
      | literal l =>
          rw [Runner.memberKey, Runner.memberKey]
          cases l.value with
          | string | number => exact pure rfl
          | null | bool | other => exact Sim.unsupported _
      | _ => exact Sim.unsupported _

theorem defineMember (target : ObjectId) {member member' : Member}
    (hm : member.Like L.toVeil member') :
    L.Same (r.defineMember s target member) (r'.defineMember s target member') := by
  cases member with
  | spread source =>
      obtain ⟨source', rfl, hs⟩ := hm
      exact (h.eval s hs).andThen fun v => h.copyProperties v target
  | unsupported =>
      obtain rfl := hm
      exact Sim.unsupported _
  | property key value kind computed method shorthand =>
      obtain ⟨key', value', rfl, hk, hv⟩ := hm
      refine (h.memberKey s computed hk).andThen fun key => ?_
      cases kind with
      | init => exact (h.evalNamed s key hv).andThen fun _ => Sim.define _ _ _
      | getter | setter => exact (h.eval s hv).andThen fun _ => defineAccessor _ _ _ _

theorem defineMembers (target : ObjectId) {members members' : List Member}
    (hm : likeMembers L.toVeil members members') :
    L.Same (r.defineMembers s target members) (r'.defineMembers s target members') := by
  induction members generalizing members' with
  | nil =>
      obtain rfl := hm
      exact pure rfl
  | cons member rest ih =>
      obtain ⟨member', rest', rfl, hmember, hrest⟩ := hm
      exact (h.defineMember s target hmember).andThen fun _ => ih hrest

/-! ## Expressions -/

omit h s in
theorem literal (l : Literal) : L.Same (Eval.literal l) (Eval.literal l) := by
  refine ite (fun _ => Sim.unsupported _) fun _ => ite (fun _ => Sim.unsupported _) fun _ => ?_
  cases l.value with
  | null | bool | number | string => exact pure rfl
  | other => exact Sim.unsupported _

theorem evaluate {e e' : Expr} (he : e.Like L.toVeil e') :
    L.Same (r.evaluate s e) (r'.evaluate s e') := by
  cases e with
  | ident name =>
      obtain rfl := he
      exact Sim.lookup s name
  | literal l =>
      obtain rfl := he
      exact literal l
  | this =>
      obtain rfl := he
      exact Sim.receiver s
  | array elements =>
      obtain ⟨elements', rfl, he⟩ := he
      refine (h.evalElements s he).andThen fun values => ?_
      exact (Sim.createArray values).andThen fun _ => pure rfl
  | object members =>
      obtain ⟨members', rfl, hm⟩ := he
      refine Sim.createObject.andThen fun o => (h.defineMembers s o hm).andThen fun _ => ?_
      exact pure rfl
  | function code =>
      obtain ⟨code', rfl, hc⟩ := he
      exact Sim.functionExpression s hc
  | arrow code =>
      obtain ⟨code', rfl, hc⟩ := he
      exact Sim.instantiate s hc true none
  | template quasis values =>
      obtain ⟨values', rfl, hv⟩ := he
      exact h.evalTemplate s "" quasis hv
  | unary op argument =>
      obtain ⟨argument', rfl, ha⟩ := he
      have applies (op : UnaryOp) : L.Same (r.eval s argument >>= r.applyUnary op)
          (r'.eval s argument' >>= r'.applyUnary op) :=
        (h.eval s ha).andThen fun v => h.applyUnary op v
      cases op with
      | delete => exact h.evalDelete s ha
      | minus | plus | not | bitNot | typeof | void => exact applies _
  | update op givesNew argument =>
      obtain ⟨argument', rfl, ha⟩ := he
      exact h.evalUpdate s op givesNew ha
  | binary op left right =>
      obtain ⟨left', right', rfl, hl, hr⟩ := he
      refine (h.eval s hl).andThen fun a => (h.eval s hr).andThen fun b => ?_
      exact h.applyBinary op a b
  | logical op left right =>
      obtain ⟨left', right', rfl, hl, hr⟩ := he
      refine (h.eval s hl).andThen fun a => ?_
      exact ite (fun _ => pure rfl) fun _ => h.eval s hr
  | assign op target value =>
      obtain ⟨target', value', rfl, ht, hv⟩ := he
      exact h.evalAssign s op ht hv
  | conditional test consequent alternate =>
      obtain ⟨test', consequent', alternate', rfl, ht, hc, ha⟩ := he
      refine (h.eval s ht).andThen fun v => ?_
      exact ite (fun _ => h.eval s hc) fun _ => h.eval s ha
  | sequence items =>
      obtain ⟨items', rfl, hi⟩ := he
      exact h.evalSequence s .undefined hi
  | access o key computed =>
      obtain ⟨o', key', rfl, ho, hk⟩ := he
      exact h.access s computed ho hk fun v key => h.getProperty v key
  | call callee arguments =>
      obtain ⟨callee', arguments', rfl, hc, ha⟩ := he
      exact h.evalCall s hc ha
  | construct callee arguments =>
      obtain ⟨callee', arguments', rfl, hc, ha⟩ := he
      exact h.evalConstruct s hc ha
  | spread argument =>
      obtain ⟨argument', rfl, _⟩ := he
      exact Sim.internalFault _
  | unsupported =>
      rcases he with hides | rfl
      · exact (Stops.unsupported hides _).sim _
      · exact Sim.unsupported _

end Pair

end Slack

end ScriptTree
