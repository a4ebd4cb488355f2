import ScriptTree.Proofs.SimulatedExpressions

/-!
# Statements and calls in lockstep

Like statements are executed alike by two runners that are a pair, and functions whose code is alike
are called alike.  The one statement that needs care is `try`: it gets hold of a fault after which
nothing is said about the second evaluation.  No handler takes such a fault, so the statement ends
with it, unless a finalizer ends in another way.

By induction on the fuel the interpreter is a pair with itself, also when the second runner has less
fuel.
-/

namespace ScriptTree

/-- A fault that no handler takes stays, whatever handler there is. -/
theorem Runner.handled_of_uncatchable (r : Runner) (s : ScopeId) (handler : Option CatchClause)
    {f : Fault} (hf : f.isCatchable = false) :
    r.handled s handler (.error f) = pure (.error f) := by
  cases handler with
  | none => rfl
  | some clause => exact if_neg (by simp [hf])

/-- The runner that runs a task as a step of `r`.  With one more fuel the interpreter is the next
runner. -/
def Runner.next (r : Runner) : Runner := ⟨r.settings, r.turns + 1, r.step⟩

namespace Slack

variable {L : Slack} {α β : Type}

/-! ## Without a runner -/

namespace Sim

/-- An attempt, and what is done with the result.  It has to stop at a fault after which nothing is
said. -/
theorem attempt {x y : Eval α} {f g : Except Fault α → Eval β} (h : L.Same x y)
    (next : ∀ result, L.Same (f result) (g result))
    (stops : ∀ fault, L.escapes fault → L.Stops (f (.error fault))) :
    L.Same (Eval.attempt x >>= f) (Eval.attempt y >>= g) := by
  intro m m' alike
  have ends := h m m' alike
  show L.Ends Eq (Eval.bind (Eval.attempt x) f m) (Eval.bind (Eval.attempt y) g m')
  rw [Eval.bind, Eval.bind, Eval.attempt, Eval.attempt]
  generalize x m = o, y m' = o' at ends
  cases ends with
  | value hab alike =>
      cases hab
      exact next _ _ _ alike
  | fault alike => exact next _ _ _ alike
  | exhausted alike => exact .exhausted alike
  | @escaped fault n o' hf =>
      -- The second attempt may have any result, so what follows the first one must not go on.
      rcases stops fault hf n with ⟨f', n', hf', ends⟩ | ⟨tires, n', ends⟩
      · simp only [ends]
        exact .escaped hf'
      · simp only [ends]
        exact .tired tires
  | tired tires => exact .tired tires
  | lagging lags => exact .lagging lags

theorem iterate {turn turn' : Eval Turn} (h : L.Same turn turn') :
    ∀ {n n' : Nat}, L.tires ∨ n' ≤ n → L.lags ∨ n ≤ n' →
      L.Same (Eval.iterate turn n) (Eval.iterate turn' n')
  -- The turns are counted down together; one evaluation alone has none left only if it may.
  | 0, 0, _, _ => exhausted
  | 0, n' + 1, fewer, _ => fun _ _ _ => .tired (fewer.resolve_right (by simp))
  | n + 1, 0, _, more => fun _ _ _ => .lagging (more.resolve_right (by simp))
  | n + 1, n' + 1, fewer, more => by
      refine h.andThen fun result => ?_
      cases result with
      | again =>
          exact iterate h (fewer.imp_right Nat.le_of_succ_le_succ)
            (more.imp_right Nat.le_of_succ_le_succ)
      | leave completion => exact pure rfl

theorem bindHoisted (s : ScopeId) (name : String) (value : Value)
    {write : ScopeId → String → Value → Eval Unit}
    (h : L.Same (write s name value) (write s name value)) :
    L.Same (Runner.bindHoisted s name value write) (Runner.bindHoisted s name value write) := by
  refine (isBound s name).andThen fun _ => ?_
  exact ite (fun _ => h) fun _ => declare s name value true

theorem functionDeclaration (s : ScopeId) {code code' : FunctionCode}
    (h : code.Like L.toVeil code') :
    L.Same (Runner.functionDeclaration s code) (Runner.functionDeclaration s code') := by
  rw [Runner.functionDeclaration, Runner.functionDeclaration, h.name]
  cases code'.name with
  | none => exact internalFault _
  | some name =>
      refine (instantiate s h false none).andThen fun function => ?_
      exact bindHoisted s name function (assign s name function)

theorem bindCaught (s : ScopeId) (f : Fault) {param param' : Option Pattern}
    (h : likeCaught L.toVeil.lenient param param') :
    L.Same (Runner.bindCaught s f param) (Runner.bindCaught s f param') := by
  match param, h with
  | none, rfl => exact pure rfl
  | some (.ident name), ⟨_, rfl, rfl⟩ => exact (faultValue f).andThen fun _ => declare _ _ _ _
  | some (.default _ _), ⟨_, rfl, ⟨_, _, rfl, _⟩⟩ => exact unsupported _
  | some (.rest _), ⟨_, rfl, ⟨_, rfl, _⟩⟩ => exact unsupported _
  | some .unsupported, ⟨_, rfl, rfl⟩ => exact unsupported _

theorem bodyValue (completion : Completion) :
    L.Same (Runner.bodyValue completion) (Runner.bodyValue completion) := by
  cases completion with
  | ret | normal => exact pure rfl
  | brk | cont => exact internalFault _

theorem openCall {c c' : Closure} (scope : c.scope = c'.scope) (arrow : c.isArrow = c'.isArrow)
    (receiver : Value) (arguments : List Value) :
    L.Same (Runner.openCall c receiver arguments) (Runner.openCall c' receiver arguments) := by
  rw [Runner.openCall, Runner.openCall, scope, arrow]
  refine ite (fun _ => (Sim.receiver _).andThen fun _ => openScope _ _) fun _ => ?_
  refine (openScope _ _).andThen fun s => (createIndexed _ arguments).andThen fun list => ?_
  exact (declare s _ _ _).andThen fun _ => pure rfl

theorem resolve (callee : Value) :
    L.Sim (Callable.Like L.toVeil) (Runner.resolve callee) (Runner.resolve callee) := by
  refine (inspect fun alike => alike.callable? callee).bind fun found found' like => ?_
  cases like with
  | some like => exact pure like
  | none =>
      match callee with
      | .object _ | .primitive _ => exact (describe _).andThen fun _ => fail _

end Sim

theorem Stops.fail {f : Fault} (h : L.escapes f) : L.Stops (Eval.fail (α := α) f) :=
  fun m => .inl ⟨f, m, h, rfl⟩

namespace Pair

open Sim (pure fail ite describe)

variable {r r' : Runner} (h : L.Pair r r') (s : ScopeId)
include h

/-! ## Statement lists -/

theorem statements (last : Value) {body body' : List Stmt} (hb : likeStmts L.toVeil body body') :
    L.Same (r.statements s last body) (r'.statements s last body') := by
  induction body generalizing body' last with
  | nil =>
      obtain rfl := hb
      exact pure rfl
  | cons statement rest ih =>
      obtain ⟨statement', rest', rfl, hs, hrest⟩ := hb
      refine (h.exec s hs).andThen fun completion => ?_
      cases completion with
      | normal value => exact ih value hrest
      | ret | brk | cont => exact pure rfl

theorem block {body body' : List Stmt} (hb : likeStmts L.toVeil body body') :
    L.Same (r.block s body) (r'.block s body') :=
  (Sim.childScope s).andThen fun inner => h.statements inner .undefined hb

/-! ## Declarations -/

theorem declarator (kind : DeclarationKind) (name : String) {init init' : Option Expr}
    (hi : likeOptional L.toVeil init init') :
    L.Same (r.declarator s kind name init) (r'.declarator s kind name init') := by
  match kind, init, hi with
  | .var, none, rfl => exact pure rfl
  | .lexical, none, rfl | .constant, none, rfl => exact Sim.declare _ _ _ _
  | .var, some e, ⟨e', rfl, he⟩ =>
      refine (h.evalNamed s name he).andThen fun value => ?_
      exact Sim.bindHoisted s name value (Sim.assignVar s name value)
  | .lexical, some e, ⟨e', rfl, he⟩ | .constant, some e, ⟨e', rfl, he⟩ =>
      exact (h.evalNamed s name he).andThen fun _ => Sim.declare _ _ _ _

theorem declarators (kind : DeclarationKind) {ds ds' : List Declarator}
    (hd : likeDeclarators L.toVeil ds ds') :
    L.Same (r.declarators s kind ds) (r'.declarators s kind ds') := by
  induction ds generalizing ds' with
  | nil =>
      obtain rfl := hd
      exact pure rfl
  | cons d rest ih =>
      obtain ⟨target, init⟩ := d
      obtain ⟨target', init', rest', rfl, ht, hi, hrest⟩ := hd
      match target, ht with
      | .ident name, rfl => exact (h.declarator s kind name hi).andThen fun _ => ih hrest
      | .default _ _, ⟨_, _, rfl, _⟩ => exact Sim.unsupported _
      | .rest _, ⟨_, rfl, _⟩ => exact Sim.unsupported _
      | .unsupported, rfl => exact Sim.unsupported _

/-! ## Loops -/

theorem iterate {turn turn' : Eval Turn} (ht : L.Same turn turn') :
    L.Same (Eval.iterate turn r.turns) (Eval.iterate turn' r'.turns) :=
  Sim.iterate ht h.turns_le h.turns_ge

theorem checkTimeout : L.Same (Eval.checkTimeout r.settings) (Eval.checkTimeout r'.settings) := by
  rw [h.settings]
  exact Sim.checkTimeout _

theorem whileTurn {test test' : Expr} {body body' : Stmt} (ht : test.Like L.toVeil test')
    (hb : body.Like L.toVeil body') :
    L.Same (r.whileTurn s test body) (r'.whileTurn s test' body') := by
  refine h.checkTimeout.andThen fun _ => (h.eval s ht).andThen fun _ => ?_
  exact ite (fun _ => (h.exec s hb).andThen fun _ => pure rfl) fun _ => pure rfl

theorem doWhileTurn {test test' : Expr} {body body' : Stmt} (hb : body.Like L.toVeil body')
    (ht : test.Like L.toVeil test') :
    L.Same (r.doWhileTurn s body test) (r'.doWhileTurn s body' test') := by
  refine h.checkTimeout.andThen fun _ => (h.exec s hb).andThen fun completion => ?_
  cases completion.turn with
  | leave => exact pure rfl
  | again => exact (h.eval s ht).andThen fun _ => ite (fun _ => pure rfl) fun _ => pure rfl

theorem forTest {test test' : Option Expr} (ht : likeOptional L.toVeil test test') :
    L.Same (r.forTest s test) (r'.forTest s test') := by
  cases test with
  | none =>
      obtain rfl := ht
      exact pure rfl
  | some e =>
      obtain ⟨e', rfl, he⟩ := ht
      exact (h.eval s he).andThen fun _ => pure rfl

theorem forUpdate {update update' : Option Expr} (hu : likeOptional L.toVeil update update') :
    L.Same (r.forUpdate s update) (r'.forUpdate s update') := by
  cases update with
  | none =>
      obtain rfl := hu
      exact pure rfl
  | some e =>
      obtain ⟨e', rfl, he⟩ := hu
      exact (h.eval s he).andThen fun _ => pure rfl

theorem forTurn {test test' update update' : Option Expr} {body body' : Stmt}
    (ht : likeOptional L.toVeil test test') (hu : likeOptional L.toVeil update update')
    (hb : body.Like L.toVeil body') :
    L.Same (r.forTurn s test update body) (r'.forTurn s test' update' body') := by
  refine h.checkTimeout.andThen fun _ => (h.forTest s ht).andThen fun _ => ?_
  refine ite (fun _ => (h.exec s hb).andThen fun completion => ?_) fun _ => pure rfl
  cases completion.turn with
  | leave => exact pure rfl
  | again => exact (h.forUpdate s hu).andThen fun _ => pure rfl

theorem forInit {init init' : Option ForInit} (hi : likeInit L.toVeil init init') :
    L.Same (r.forInit s init) (r'.forInit s init') := by
  match init, hi with
  | none, rfl => exact pure rfl
  | some (.declaration kind _), ⟨_, rfl, hd⟩ => exact h.declarators s kind hd
  | some (.expression _), ⟨_, rfl, he⟩ => exact (h.eval s he).andThen fun _ => pure rfl

theorem forLoop {init init' : Option ForInit} {test test' update update' : Option Expr}
    {body body' : Stmt} (hi : likeInit L.toVeil init init')
    (ht : likeOptional L.toVeil test test') (hu : likeOptional L.toVeil update update')
    (hb : body.Like L.toVeil body') :
    L.Same (r.forLoop s init test update body) (r'.forLoop s init' test' update' body') := by
  refine (Sim.childScope s).andThen fun inner => (h.forInit inner hi).andThen fun _ => ?_
  exact h.iterate (h.forTurn inner ht hu hb)

/-! ## Switch -/

theorem matchingCases (discriminant : Value) {cases cases' : List SwitchCase}
    (hc : likeCases L.toVeil cases cases') :
    L.Sim (Option.Rel (likeCases L.toVeil)) (r.matchingCases s discriminant cases)
      (r'.matchingCases s discriminant cases') := by
  induction cases generalizing cases' with
  | nil =>
      obtain rfl := hc
      exact pure .none
  | cons clause rest ih =>
      obtain ⟨test, body⟩ := clause
      -- A case that matches is returned with those after it, as they stand.
      have whole := hc
      obtain ⟨test', body', rest', rfl, ht, hb, hrest⟩ := hc
      cases test with
      | none =>
          obtain rfl := ht
          exact (ih hrest :)
      | some e =>
          obtain ⟨e', rfl, he⟩ := ht
          refine (h.eval s he).andThen fun v => ?_
          exact ite (fun _ => pure (.some whole)) fun _ => ih hrest

omit h s in
theorem defaultCases {cases cases' : List SwitchCase} (hc : likeCases L.toVeil cases cases') :
    likeCases L.toVeil (Runner.defaultCases cases) (Runner.defaultCases cases') := by
  induction cases generalizing cases' with
  | nil =>
      obtain rfl := hc
      rfl
  | cons clause rest ih =>
      obtain ⟨test, body⟩ := clause
      have whole := hc
      obtain ⟨test', body', rest', rfl, ht, hb, hrest⟩ := hc
      cases test with
      | none =>
          obtain rfl := ht
          exact whole
      | some e =>
          obtain ⟨e', rfl, he⟩ := ht
          exact (ih hrest :)

theorem runCases {cases cases' : List SwitchCase} (hc : likeCases L.toVeil cases cases') :
    L.Same (r.runCases s cases) (r'.runCases s cases') := by
  induction cases generalizing cases' with
  | nil =>
      obtain rfl := hc
      exact pure rfl
  | cons clause rest ih =>
      obtain ⟨test, body⟩ := clause
      obtain ⟨test', body', rest', rfl, ht, hb, hrest⟩ := hc
      refine (h.statements s .undefined hb).andThen fun completion => ?_
      cases completion with
      | normal value => exact ih hrest
      | ret | brk | cont => exact pure rfl

theorem switch {e e' : Expr} {cases cases' : List SwitchCase} (he : e.Like L.toVeil e')
    (hc : likeCases L.toVeil cases cases') :
    L.Same (r.switch s e cases) (r'.switch s e' cases') := by
  refine (h.eval s he).andThen fun value => (Sim.childScope s).andThen fun inner => ?_
  refine (h.matchingCases inner value hc).bind fun found found' like => ?_
  cases like with
  | some like => exact h.runCases inner like
  | none => exact h.runCases inner (defaultCases hc)

/-! ## Try -/

/-- Runs a handler, and ends as it ended. -/
theorem handle {clause clause' : CatchClause} (f : Fault)
    (hparam : likeCaught L.toVeil.lenient clause.param clause'.param)
    (hbody : likeStmts L.toVeil clause.body clause'.body) :
    L.Same (r.handle s clause f >>= Eval.ofAttempt) (r'.handle s clause' f >>= Eval.ofAttempt) := by
  simp only [Runner.handle, bind_assoc]
  refine (Sim.childScope s).andThen fun inner => (Sim.bindCaught inner f hparam).andThen fun _ => ?_
  refine Sim.attempt (h.block inner hbody) (fun result => ?_) fun fault hf => .fail hf
  cases result with
  | ok a => exact pure rfl
  | error f => exact fail f

/-- A `try` without a finalizer. -/
theorem tryCatch {block block' : List Stmt} {handler handler' : Option CatchClause}
    (hb : likeStmts L.toVeil block block') (hh : likeHandler L.toVeil handler handler') :
    L.Same (r.tryCatch s block handler none) (r'.tryCatch s block' handler' none) := by
  refine Sim.attempt (h.block s hb) (fun result => ?_) fun fault hf => ?_
  · match handler, hh, result with
    | none, rfl, .ok _ => exact pure rfl
    | none, rfl, .error f => exact fail f
    | some ⟨_, _⟩, ⟨_, _, rfl, _, _⟩, .ok _ => exact pure rfl
    | some ⟨_, _⟩, ⟨_, _, rfl, hparam, hbody⟩, .error f =>
        rw [Runner.handled, Runner.handled]
        cases f.isCatchable with
        | true => exact h.handle s f hparam hbody
        | false => exact fail f
  · rw [r.handled_of_uncatchable s handler (L.uncaught fault hf)]
    exact .fail hf

/-! ## All statements -/

theorem conditional {test test' : Expr} {consequent consequent' : Stmt}
    {alternate alternate' : Option Stmt} (ht : test.Like L.toVeil test')
    (hc : consequent.Like L.toVeil consequent')
    (ha : likeAlternate L.toVeil alternate alternate') :
    L.Same (r.execute s (.conditional test consequent alternate))
      (r'.execute s (.conditional test' consequent' alternate')) := by
  refine (h.eval s ht).andThen fun v => ite (fun _ => h.exec s hc) fun _ => ?_
  match alternate, ha with
  | none, rfl => exact pure rfl
  | some statement, ⟨statement', rfl, hs⟩ => exact h.exec s hs

theorem execute {t t' : Stmt} (ht : t.Like L.toVeil t') (free : t.hasFinalizer = false) :
    L.Same (r.execute s t) (r'.execute s t') := by
  cases t with
  | declaration kind declarators =>
      obtain ⟨declarators', rfl, hd⟩ := ht
      exact (h.declarators s kind hd).andThen fun _ => pure rfl
  | function code =>
      obtain ⟨code', rfl, hc⟩ := ht
      exact (Sim.functionDeclaration s hc).andThen fun _ => pure rfl
  | expression e =>
      obtain ⟨e', rfl, he⟩ := ht
      exact (h.eval s he).andThen fun _ => pure rfl
  | block body =>
      obtain ⟨body', rfl, hb⟩ := ht
      exact h.block s hb
  | empty =>
      obtain rfl := ht
      exact pure rfl
  | conditional test consequent alternate =>
      obtain ⟨test', consequent', alternate', rfl, ht, hc, ha⟩ := ht
      exact h.conditional s ht hc ha
  | forLoop init test update body =>
      obtain ⟨init', test', update', body', rfl, hi, ht, hu, hb⟩ := ht
      exact h.forLoop s hi ht hu hb
  | whileLoop test body =>
      obtain ⟨test', body', rfl, ht, hb⟩ := ht
      exact h.iterate (h.whileTurn s ht hb)
  | doWhile body test =>
      obtain ⟨body', test', rfl, hb, ht⟩ := ht
      exact h.iterate (h.doWhileTurn s hb ht)
  | switch discriminant cases =>
      obtain ⟨discriminant', cases', rfl, hd, hc⟩ := ht
      exact h.switch s hd hc
  | tryCatch block handler finalizer =>
      obtain ⟨block', handler', finalizer', rfl, hb, hh, hf⟩ := ht
      cases finalizer with
      | none =>
          obtain rfl := hf
          exact h.tryCatch s hb hh
      | some body => cases free
  | ret value =>
      obtain ⟨value', rfl, hv⟩ := ht
      match value, hv with
      | none, rfl => exact pure rfl
      | some e, ⟨e', rfl, he⟩ => exact (h.eval s he).andThen fun _ => pure rfl
  | brk label | cont label =>
      obtain rfl := ht
      exact ite (fun _ => Sim.unsupported _) fun _ => pure rfl
  | throw e =>
      obtain ⟨e', rfl, he⟩ := ht
      exact (h.eval s he).andThen fun v => Sim.throwValue v
  | unsupported =>
      obtain rfl := ht
      exact Sim.unsupported _

/-! ## Calls -/

theorem bindParameter (arguments : List Value) {p p' : Pattern} (hp : p.Like L.toVeil p') :
    L.Same (r.bindParameter s arguments p) (r'.bindParameter s arguments p') := by
  match p, hp with
  | .ident name, rfl => exact Sim.declare _ _ _ _
  | .default (.ident name) e, ⟨_, e', rfl, rfl, he⟩ =>
      refine ite (fun _ => ?_) fun _ => Sim.declare _ _ _ _
      exact (h.evalNamed s name he).andThen fun _ => Sim.declare _ _ _ _
  | .default (.default _ _) _, ⟨_, _, rfl, ⟨_, _, rfl, _⟩, _⟩ => exact Sim.unsupported _
  | .default (.rest _) _, ⟨_, _, rfl, ⟨_, rfl, _⟩, _⟩ => exact Sim.unsupported _
  | .default .unsupported _, ⟨_, _, rfl, rfl, _⟩ => exact Sim.unsupported _
  | .rest (.ident name), ⟨_, rfl, rfl⟩ =>
      exact (Sim.createArray arguments).andThen fun _ => Sim.declare _ _ _ _
  | .rest (.default _ _), ⟨_, rfl, ⟨_, _, rfl, _⟩⟩ => exact Sim.unsupported _
  | .rest (.rest _), ⟨_, rfl, ⟨_, rfl, _⟩⟩ => exact Sim.unsupported _
  | .rest .unsupported, ⟨_, rfl, rfl⟩ => exact Sim.unsupported _
  | .unsupported, rfl => exact Sim.unsupported _

theorem bindParameters {params params' : List Pattern} (hp : likeParams L.toVeil params params')
    (arguments : List Value) :
    L.Same (r.bindParameters s params arguments) (r'.bindParameters s params' arguments) := by
  induction params generalizing params' arguments with
  | nil =>
      obtain rfl := hp
      exact pure rfl
  | cons param rest ih =>
      obtain ⟨param', rest', rfl, hparam, hrest⟩ := hp
      exact (h.bindParameter s arguments hparam).andThen fun _ => ih hrest _

theorem runBody {body body' : FunctionBody} (hb : body.Like L.toVeil body') :
    L.Same (r.runBody s body) (r'.runBody s body') := by
  cases body with
  | expression e =>
      obtain ⟨e', rfl, he⟩ := hb
      exact h.eval s he
  | block body =>
      obtain ⟨body', rfl, hb⟩ := hb
      refine (Sim.hoist s hb).andThen fun _ => (h.statements s .undefined hb).andThen ?_
      exact fun completion => Sim.bodyValue completion

omit s in
theorem enter {c c' : Callable} (hc : c.Like L.toVeil c') (receiver : Value)
    (arguments : List Value) (target : Option ObjectId) :
    L.Same (r.enter c receiver arguments target) (r'.enter c' receiver arguments target) := by
  cases c with
  | closure closure =>
      obtain ⟨code, rfl, hcode⟩ := hc
      refine (Sim.openCall rfl rfl receiver arguments).andThen fun s => ?_
      exact (h.bindParameters s hcode.params arguments).andThen fun _ => h.runBody s hcode.body
  | builtin b =>
      obtain rfl := hc
      exact h.runBuiltin b receiver arguments target
  | host f =>
      obtain rfl := hc
      exact Sim.trace.andThen fun _ => Sim.hostFunction f _

omit s in
theorem allow (callee : Value) (target : Option ObjectId) :
    L.Sim (Callable.Like L.toVeil) (r.allow callee target) (r'.allow callee target) := by
  refine (Sim.resolve callee).bind fun c c' like => ?_
  rw [like.isConstructor]
  refine ite (fun _ => (describe callee).andThen fun _ => fail _) fun _ => ?_
  refine h.checkTimeout.andThen fun _ => ?_
  rw [h.settings]
  exact (Sim.checkDepth _).andThen fun _ => pure like

omit s in
theorem applies (callee receiver : Value) (arguments : List Value) (target : Option ObjectId) :
    L.Same (r.apply callee receiver arguments target)
      (r'.apply callee receiver arguments target) := by
  refine (h.allow callee target).bind fun c c' like => ?_
  rw [like.name?, like.position?]
  exact Sim.withFrame _ (h.enter like receiver arguments target)

end Pair

/-! ## Runs -/

theorem Pair.next {r r' : Runner} (strict : ¬L.finalizers) (h : L.Pair r r') :
    L.Pair r.next r'.next where
  settings := h.settings
  turns_le := h.turns_le.imp_right Nat.succ_le_succ
  turns_ge := h.turns_ge.imp_right Nat.succ_le_succ
  eval s _ _ he := h.evaluate s he
  exec s _ _ ht := h.execute s ht (ht.hasFinalizer strict)
  apply := h.applies
  hidden hides _ := Stops.unsupported hides _

/-- The interpreter is a pair with itself when the first runner may run out of fuel alone. -/
theorem pair_of_tires (strict : ¬L.finalizers) (tires : L.tires) (settings : Settings) :
    ∀ fuel, L.Pair (settings.runner fuel) (settings.runner fuel)
  | 0 =>
      { settings := rfl
        turns_le := .inl tires
        turns_ge := .inr (Nat.le_refl _)
        eval := fun _ _ _ _ => Sim.exhausted
        exec := fun _ _ _ _ => Sim.exhausted
        apply := fun _ _ _ _ => Sim.exhausted
        -- Without fuel a hidden expression does not come to its fault.
        hidden := fun _ _ m => .inr ⟨tires, m, rfl⟩ }
  | fuel + 1 => (pair_of_tires strict tires settings fuel).next strict

/-- The interpreter is a pair with itself when the second runner has less fuel. -/
theorem pair_of_lags (strict : ¬L.finalizers) (lags : L.lags) (settings : Settings) :
    ∀ fuel, L.Pair (settings.runner (fuel + 1)) (settings.runner fuel)
  | 0 =>
      { settings := rfl
        turns_le := .inr (Nat.zero_le _)
        turns_ge := .inl lags
        eval := fun _ _ _ _ _ _ _ => .lagging lags
        exec := fun _ _ _ _ _ _ _ => .lagging lags
        apply := fun _ _ _ _ _ _ _ => .lagging lags
        hidden := fun hides _ => Stops.unsupported hides _ }
  | fuel + 1 => (pair_of_lags strict lags settings fuel).next strict

end Slack

end ScriptTree
