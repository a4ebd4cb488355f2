import ScriptTree.Proofs.Runs

/-!
# The call stack

Whatever an evaluation does and however it ends, the active calls are the same before and after it
(`perform_stack`), and there are never more of them than the settings allow.

The second part speaks of moments inside an evaluation.  The stack grows in one place only, where a
call gets its frame.  So we let a second interpreter look at the stack there, and at the start of
every other task, and do anything at all when it is too long.  No evaluation can tell it from the
interpreter (`perform_watched`).
-/

namespace ScriptTree

/-! ## Operations -/

/-- What an embedder or a rule of the language can start. -/
inductive Operation : Type → Type where
  | eval (e : Expr) (s : ScopeId) : Operation Value
  | exec (stmt : Stmt) (s : ScopeId) : Operation Completion
  | statements (body : List Stmt) (s : ScopeId) : Operation Completion
  | program (p : Program) (s : ScopeId) : Operation Value
  | call (callee receiver : Value) (arguments : List Value) (target : Option ObjectId) :
      Operation Value
  | construct (constructor : Value) (arguments : List Value) (newTarget : Option Value) :
      Operation ObjectId
  | read (v : Value) (key : String) : Operation Value
  | write (v : Value) (key : String) (value : Value) : Operation Unit
  | delete (v : Value) (key : String) : Operation Bool
  | toPrimitive (hint : Hint) (v : Value) : Operation Primitive
  | toNumber (v : Value) : Operation Float
  | toText (v : Value) : Operation String
  | toWord (v : Value) : Operation UInt32
  | toObject (v : Value) : Operation ObjectId
  | elements (v : Value) : Operation (List Value)
  | looseEquals (left right : Value) : Operation Bool

/-- Performs an operation. -/
def Operation.perform (r : Runner) : {α : Type} → Operation α → Eval α
  | _, .eval e s => r.eval s e
  | _, .exec stmt s => r.exec s stmt
  | _, .statements body s => r.statements s .undefined body
  | _, .program p s => r.evalProgram s p
  | _, .call callee receiver arguments target => r.run (.call callee receiver arguments target)
  | _, .construct constructor arguments newTarget => r.construct constructor arguments newTarget
  | _, .read v key => r.getProperty v key
  | _, .write v key value => r.setProperty v key value
  | _, .delete v key => Eval.deleteProperty v key
  | _, .toPrimitive hint v => r.toPrimitive hint v
  | _, .toNumber v => r.toNumber v
  | _, .toText v => r.toText v
  | _, .toWord v => r.toWord v
  | _, .toObject v => Eval.toObject v
  | _, .elements v => r.arrayLike v
  | _, .looseEquals left right => r.looseEquals left right

/-- What an operation may change of what it finds. -/
def Operation.footprint : {α : Type} → Operation α → Footprint
  | _, .exec stmt s => (Task.exec stmt s).footprint
  | _, .statements _ s | _, .program _ s => ⟨some s, none⟩
  | _, .call _ _ _ target => ⟨none, target⟩
  | _, _ => .nothing

/-- Whether the code of an operation passes. -/
def Operation.passes (c : Checks) : {α : Type} → Operation α → Bool
  | _, .eval e _ => e.all c
  | _, .exec stmt _ => stmt.all c
  | _, .statements body _ | _, .program ⟨body⟩ _ => allStmts c body
  | _, _ => true

theorem Operation.passes_anything {α : Type} (op : Operation α) : op.passes .anything = true := by
  cases op with
  | eval e s => exact e.all_anything
  | exec stmt s => exact stmt.all_anything
  | statements body s => exact allStmts_anything body
  | program p s => exact allStmts_anything p.body
  | _ => rfl

namespace Discipline

/-- What an operation may be started with. -/
def Requests (D : Discipline) (fuel : Nat) (w : D.World) : {α : Type} → Operation α → Prop
  | _, .eval e s => D.Admits fuel w (.eval e s)
  | _, .exec stmt s => D.Admits fuel w (.exec stmt s)
  | _, .statements body s =>
      D.Fits fuel w (allStmts D.checks body) (sizeOf body) ∧ D.scope w s ∧
        D.ready w s (hoistedNames body)
  | _, .program p s =>
      D.Fits fuel w (allStmts D.checks p.body) (sizeOf p.body) ∧ D.scope w s ∧
        (D.checks.Refines .supported → (jumpsOf p.body).isEmpty = true)
  | _, .call callee receiver arguments target =>
      D.Admits fuel w (.call callee receiver arguments target)
  | _, .construct constructor arguments newTarget =>
      D.value w constructor ∧ (∀ v ∈ arguments, D.value w v) ∧
        (∀ v, newTarget = some v → D.value w v) ∧ D.room fuel w 0
  | _, .write v _ value => D.value w v ∧ D.value w value ∧ D.room fuel w 0
  | _, .looseEquals left right => D.value w left ∧ D.value w right ∧ D.room fuel w 0
  | _, .delete v _ | _, .toObject v => D.value w v
  | _, .read v _ | _, .toPrimitive _ v | _, .toNumber v | _, .toText v | _, .toWord v
  | _, .elements v => D.value w v ∧ D.room fuel w 0

/-- Every operation keeps a discipline, with any two runners that do. -/
theorem Matches.operation {D : Discipline} {k : Nat} {r r' : Runner} (h : D.Matches k r r')
    {α : Type} (op : Operation α) {w : D.World} (requested : D.Requests k w op) :
    D.Keeps op.footprint w (op.perform r) (op.perform r') fun _ _ => True := by
  have forget {β : Type} {fp : Footprint} {x y : Eval β} {Q : D.World → β → Prop}
      (keeps : D.Keeps fp w x y Q) : D.Keeps fp w x y fun _ _ => True :=
    keeps.post fun _ _ _ _ => trivial
  cases op with
  | eval e s => exact forget (h.run (.eval e s) w requested)
  | exec stmt s => exact forget (h.run (.exec stmt s) w requested)
  | statements body s =>
      obtain ⟨fits, hs, ready⟩ := requested
      exact forget (h.statements fits hs ready rfl (h.law.primitive_ok w _))
  | program p s =>
      obtain ⟨fits, hs, supported⟩ := requested
      exact forget (h.evalProgram fits hs supported)
  | call callee receiver arguments target =>
      exact forget (h.run (.call callee receiver arguments target) w requested)
  | construct constructor arguments newTarget =>
      obtain ⟨hc, ha, ht, room⟩ := requested
      exact forget (h.construct hc ha ht room)
  | read v key => exact forget (h.getProperty key requested.1 requested.2)
  | write v key value =>
      obtain ⟨hv, hx, room⟩ := requested
      exact forget (h.setProperty key hv hx room)
  | delete v key => exact forget (h.law.deleteProperty key requested)
  | toPrimitive hint v => exact forget (h.toPrimitive hint requested.1 requested.2)
  | toNumber v => exact forget (h.toNumber requested.1 requested.2)
  | toText v => exact forget (h.toText requested.1 requested.2)
  | toWord v => exact forget (h.toWord requested.1 requested.2)
  | toObject v => exact forget (h.law.toObject requested)
  | elements v => exact forget (h.arrayLike requested.1 requested.2)
  | looseEquals left right =>
      obtain ⟨hl, hr, room⟩ := requested
      exact forget (h.looseEquals hl hr room)

theorem anything_not_supported : ¬Checks.Refines .anything .supported := by
  intro refines
  cases refines.expr .unsupported rfl

/-- With values and scopes of any kind, only the code of an operation counts, and the object it has
to construct. -/
theorem Lenient.requests {D : Discipline} (free : D.Lenient)
    (lenient : ¬D.checks.Refines .supported) {k : Nat} {α : Type} {op : Operation α} {w : D.World}
    (passes : op.passes D.checks = true)
    (target : ∀ o, op.footprint.target = some o → D.target w o) : D.Requests k w op := by
  have value := free.value w
  have values (arguments : List Value) : ∀ v ∈ arguments, D.value w v := fun v _ => value v
  have calls : D.room k w 0 := free.room k w 0
  have ready (s : ScopeId) (names : List String) : D.ready w s names :=
    fun name _ => free.sees w s name
  cases op with
  | eval e s => exact ⟨⟨passes, free.room ..⟩, free.scope w s⟩
  | exec stmt s => exact ⟨⟨passes, free.room ..⟩, free.scope w s, ready s _⟩
  | statements body s => exact ⟨⟨passes, free.room ..⟩, free.scope w s, ready s _⟩
  | program p s =>
      exact ⟨⟨passes, free.room ..⟩, free.scope w s, fun refines => absurd refines lenient⟩
  | call callee receiver arguments object =>
      exact ⟨value callee, value receiver, values arguments, target, calls⟩
  | construct constructor arguments newTarget =>
      exact ⟨value constructor, values arguments, fun v _ => value v, calls⟩
  | write v key x => exact ⟨value v, value x, calls⟩
  | looseEquals left right => exact ⟨value left, value right, calls⟩
  | delete v key => exact value v
  | toObject v => exact value v
  | _ => exact ⟨value _, calls⟩

theorem Carefree.requests {D : Discipline} (free : D.Carefree) {k : Nat} {α : Type}
    {op : Operation α} {w : D.World} (target : ∀ o, op.footprint.target = some o → D.target w o) :
    D.Requests k w op := by
  have lenient : ¬D.checks.Refines .supported := free.checks ▸ anything_not_supported
  exact free.toLenient.requests lenient (free.checks ▸ op.passes_anything) target

/-- However an operation ends, it has reached a world of a lawful discipline. -/
theorem Lawful.perform {D : Discipline} (law : D.Lawful) {settings : Settings}
    (agree : D.Agree settings settings) (fuel : Nat) {α : Type} (op : Operation α) {w : D.World}
    (requested : D.Requests fuel w op) :
    ∃ w', D.reaches op.footprint w w' ∧
      (op.perform (settings.runner fuel) (D.machine w)).machine = D.machine w' :=
  ((law.runner agree (Nat.le_refl fuel) fun _ => rfl).operation op requested).outcome

/-! ## The discipline -/

/-- The stack is the same again, and never of a height that is not `within` bounds. -/
def balanced (within : Nat → Prop) (inStep : Array Line → Prop) : Discipline where
  World := { m : Machine // within m.stack.length }
  machine := Subtype.val
  console w := w.val.console
  reaches _ w w' := w'.val.stack = w.val.stack
  value _ _ := True
  slot _ _ := True
  scope _ _ := True
  target _ _ := True
  builtin _ := True
  fault _ _ := True
  checks := .anything
  fits _ := True
  room _ _ _ := True
  mayEnter w := within (w.val.stack.length + 1)
  mayExhaust := True
  inStep w := inStep w.val.console

variable {within : Nat → Prop} {inStep : Array Line → Prop}

/-- A change that leaves the stack alone. -/
theorem balanced_follows {fp : Footprint} (w : (balanced within inStep).World)
    (change : Machine → Machine) (stack : (change w.val).stack = w.val.stack)
    (console : (change w.val).console = w.val.console) :
    ∃ w', (balanced within inStep).Follows fp w w' change :=
  ⟨⟨change w.val, stack ▸ w.property⟩, stack, rfl, console⟩

theorem balanced_carefree : (balanced within inStep).Carefree where
  value _ _ := trivial
  scope _ _ := trivial
  builtin _ := trivial
  fault _ _ := trivial
  fits _ := trivial
  room _ _ _ := trivial
  sees _ _ _ := trivial
  mayExhaust := trivial
  slot _ _ := trivial
  checks := rfl

theorem balanced_changes : (balanced within inStep).Changes where
  refl _ _ := rfl
  trans h₁ h₂ := Eq.trans h₂ h₁
  widenScope h := h
  widenTarget h := h
  dropScope _ h := h
  dropTarget _ h := h
  target_mono _ _ := trivial
  allocates {w o} _ := by
    obtain ⟨w', follows⟩ := balanced_follows w (fun m => { m with objects := m.objects.push o })
      rfl rfl
    exact ⟨w', follows, fun _ _ => trivial, fun _ => trivial⟩
  defines {w _ _} _ _ := balanced_follows w _ rfl rfl
  erases {w _} _ := balanced_follows w _ rfl rfl
  boxes {w _ _} _ _ := balanced_follows w _ rfl rfl
  opensScope {w _ _} := balanced_follows w _ rfl rfl
  declares {w _ _} _ _ := balanced_follows w _ rfl rfl
  assigns {w _ _ _ _} _ _ := balanced_follows w _ rfl rfl
  setsClock w _ := balanced_follows w _ rfl rfl
  enters {w} frame may := by
    refine ⟨⟨{ w.val with stack := frame :: w.val.stack }, may⟩, rfl, rfl, fun _ _ => trivial, ?_⟩
    intro fp w₂ hr
    have popped : w₂.val.stack.tail = w.val.stack := congrArg List.tail hr
    exact ⟨⟨{ w₂.val with stack := w₂.val.stack.tail }, popped ▸ w.property⟩, popped, rfl, rfl,
      fun step => step⟩

theorem balanced_lawful : (balanced within inStep).Lawful :=
  balanced_carefree.lawful balanced_changes

theorem balanced_agree {settings : Settings}
    (may : ∀ n, n < settings.maxCallDepth → within (n + 1)) :
    (balanced within inStep).Agree settings settings :=
  balanced_lawful.agree settings (fun _ _ _ => trivial) (fun _ h => may _ h) fun w line =>
    ⟨⟨{ w.val with console := w.val.console.push line }, w.property⟩, rfl, rfl, rfl⟩

/-- Every operation keeps the stack, with any two runners that do. -/
theorem Matches.perform {k : Nat} {r r' : Runner} (h : (balanced within inStep).Matches k r r')
    {α : Type} (op : Operation α) (w : (balanced within inStep).World) :
    (balanced within inStep).Keeps op.footprint w (op.perform r) (op.perform r') fun _ _ => True :=
  h.operation op (balanced_carefree.requests fun _ _ => trivial)

end Discipline

/-! ## Balance -/

/-- The calls that were active are active again, however an operation ends. -/
theorem perform_stack (settings : Settings) (fuel : Nat) {α : Type} (op : Operation α)
    (m : Machine) : (op.perform (settings.runner fuel) m).machine.stack = m.stack := by
  have agree : (Discipline.balanced (fun _ => True) fun _ => True).Agree settings settings :=
    Discipline.balanced_agree fun _ _ => trivial
  obtain ⟨w', same, ends⟩ := Discipline.balanced_lawful.perform agree fuel op
    (w := ⟨m, trivial⟩) (Discipline.balanced_carefree.requests fun _ _ => trivial)
  exact (congrArg Machine.stack ends).trans same

/-! ## Bound -/

/-- Does `alarm` in place of an action when more calls are active than may be. -/
def Eval.watch {α : Type} (limit : Nat) (alarm x : Eval α) : Eval α := fun m =>
  if limit < m.stack.length then alarm m else x m

/-- Runs one task under watch.  A call is watched as soon as it has its frame. -/
def Runner.watchedStep (r : Runner) (limit : Nat) (alarm : (α : Type) → Eval α) :
    {α : Type} → Task α → Eval α
  | _, .eval e s => Eval.watch limit (alarm _) (r.evaluate s e)
  | _, .exec stmt s => Eval.watch limit (alarm _) (r.execute s stmt)
  | _, .call callee receiver arguments target => do
      let callable ← r.allow callee target
      Eval.withFrame ⟨callable.name?, callable.position?⟩
        (Eval.watch limit (alarm _) (r.enter callable receiver arguments target))

/-- Runs a task under watch, and every task below it. -/
def watchedRun (settings : Settings) (alarm : (α : Type) → Eval α) :
    Nat → {α : Type} → Task α → Eval α
  | 0, _, _ => Eval.exhausted
  | fuel + 1, _, task =>
      Runner.watchedStep ⟨settings, fuel, watchedRun settings alarm fuel⟩ settings.maxCallDepth
        alarm task

/-- The runner that runs everything under watch. -/
def Settings.watchedRunner (settings : Settings) (alarm : (α : Type) → Eval α) (fuel : Nat) :
    Runner :=
  ⟨settings, fuel, watchedRun settings alarm fuel⟩

namespace Discipline

variable {limit : Nat} {inStep : Array Line → Prop}

/-- Under the limit the watch does nothing. -/
theorem Keeps.watched {fp : Footprint} {w : (balanced (· ≤ limit) inStep).World} {α : Type}
    {x y : Eval α} {Q : (balanced (· ≤ limit) inStep).World → α → Prop} (alarm : Eval α)
    (hx : (balanced (· ≤ limit) inStep).Keeps fp w x y Q) :
    (balanced (· ≤ limit) inStep).Keeps fp w x (Eval.watch limit alarm y) Q :=
  hx.congr rfl (if_neg (Nat.not_lt.mpr w.property))

theorem Matches.watchedStep {k : Nat} {r r' : Runner}
    (h : (balanced (· ≤ limit) inStep).Matches k r r')
    (agree : (balanced (· ≤ limit) inStep).Agree r.settings r'.settings)
    (alarm : (α : Type) → Eval α) {α : Type} (task : Task α)
    (w : (balanced (· ≤ limit) inStep).World)
    (admitted : (balanced (· ≤ limit) inStep).Admits (k + 1) w task) :
    (balanced (· ≤ limit) inStep).Keeps task.footprint w (r.step task)
      (r'.watchedStep limit alarm task) ((balanced (· ≤ limit) inStep).Answers task) := by
  cases task with
  | eval e s => exact (h.step agree (.eval e s) w admitted).watched _
  | exec stmt s => exact (h.step agree (.exec stmt s) w admitted).watched _
  | call callee receiver arguments target =>
      -- the watch is inside the frame: it sees the stack of the call, which `may` bounds
      refine h.law.bind (h.allow agree callee target) fun callable w₁ h₁ ⟨hc, may⟩ => ?_
      refine h.law.withFrame (k := k) may trivial fun w₂ enters => ?_
      exact (h.enter (enters.callable hc) trivial (fun _ _ => trivial) (fun _ _ => trivial) rfl
        enters.calls enters.room).watched _

theorem watched_runner (settings : Settings) (alarm : (α : Type) → Eval α) (fuel : Nat) :
    (balanced (· ≤ settings.maxCallDepth) fun _ => True).Matches fuel (settings.runner fuel)
      (settings.watchedRunner alarm fuel) := by
  have agree : (balanced (· ≤ settings.maxCallDepth) fun _ => True).Agree settings settings :=
    balanced_agree fun _ h => h
  induction fuel with
  | zero =>
      refine ⟨balanced_lawful, agree.toAgreeInside, ?_, Nat.le_refl 0, fun _ => rfl⟩
      exact fun task w _ => .exhausted w rfl rfl trivial fun _ => rfl
  | succ fuel ih =>
      refine ⟨balanced_lawful, agree.toAgreeInside, ?_, Nat.le_refl _, fun _ => rfl⟩
      exact fun task w admitted => ih.watchedStep agree alarm task w admitted

end Discipline

/-- No evaluation comes to a moment with too many calls: whatever would happen there is not seen. -/
theorem perform_watched (settings : Settings) (alarm : (α : Type) → Eval α) (fuel : Nat)
    {α : Type} (op : Operation α) {m : Machine} (h : m.stack.length ≤ settings.maxCallDepth) :
    op.perform (settings.watchedRunner alarm fuel) m = op.perform (settings.runner fuel) m := by
  have keeps := (Discipline.watched_runner settings alarm fuel).perform op ⟨m, h⟩
  exact keeps.eq_companion (fun _ => rfl) fun _ _ => trivial

/-! ## Refusal -/

namespace Eval

theorem checkTimeout_cases (settings : Settings) (m : Machine) :
    (∃ m', checkTimeout settings m = .value () m' ∧ m'.stack = m.stack) ∨
      ∃ limit elapsed m', checkTimeout settings m = .fault (.timeout limit elapsed) m' := by
  simp only [checkTimeout]
  split
  · split
    · exact .inl ⟨m, rfl, rfl⟩
    · split
      · exact .inr ⟨_, _, _, rfl⟩
      · exact .inl ⟨_, rfl, rfl⟩
  · exact .inl ⟨m, rfl, rfl⟩

end Eval

namespace Runner

variable {r : Runner} {callee : Value} {target : Option ObjectId} {callable : Callable}
  {m m' : Machine}

theorem resolve_of_some (h : m.callable? callee = some callable) :
    resolve callee m = .value callable m := by
  have found : Eval.inspect (·.callable? callee) m = .value (some callable) m := by
    rw [Eval.inspect, h]
  exact Eval.bind_of_value found

theorem resolve_of_none (h : m.callable? callee = none) :
    ∃ f, resolve callee m = .fault f m ∧ f ≠ .callDepth := by
  have missing : Eval.inspect (·.callable? callee) m = .value none m := by
    rw [Eval.inspect, h]
  cases callee with
  | object o =>
      exact ⟨_, Eval.bind_of_value missing, by simp [Fault.notFunction, Fault.callDepth]⟩
  | primitive p =>
      exact ⟨_, Eval.bind_of_value missing, by simp [Fault.notCallable, Fault.callDepth]⟩

/-- What is no constructor is not constructed with. -/
theorem allow_of_not_constructor (hc : m.callable? callee = some callable)
    (ht : ¬(target.isSome = true → callable.isConstructor = true)) :
    r.allow callee target m = .fault (.notConstructor (m.describe callee)) m := by
  refine (Eval.bind_of_value (resolve_of_some hc)).trans ?_
  have refused : (target.isSome && !callable.isConstructor) = true := by simpa using ht
  rw [if_pos refused]
  rfl

theorem allow_of_constructor (hc : m.callable? callee = some callable)
    (ht : target.isSome = true → callable.isConstructor = true) :
    r.allow callee target m =
      (do
        Eval.checkTimeout r.settings
        Eval.checkDepth r.settings
        return callable) m := by
  refine (Eval.bind_of_value (resolve_of_some hc)).trans ?_
  have passed : ¬(target.isSome && !callable.isConstructor) = true := by simpa using ht
  rw [if_neg passed]

/-- A function that may be called as it is, in time, is refused for the depth alone. -/
theorem allow_of_checked (hc : m.callable? callee = some callable)
    (ht : target.isSome = true → callable.isConstructor = true)
    (hm : Eval.checkTimeout r.settings m = .value () m') :
    r.allow callee target m =
      if r.settings.maxCallDepth ≤ m.stack.length then .fault .callDepth m'
      else .value callable m' := by
  have stack : m'.stack = m.stack := by
    rcases Eval.checkTimeout_cases r.settings m with ⟨m₁, h₁, stack⟩ | ⟨_, _, _, h₁⟩
    · cases hm.symm.trans h₁
      exact stack
    · cases hm.symm.trans h₁
  rw [allow_of_constructor hc ht, ← stack]
  refine (Eval.bind_of_value hm).trans ?_
  by_cases deep : r.settings.maxCallDepth ≤ m'.stack.length
  · rw [if_pos deep]
    exact Eval.bind_of_fault (if_pos deep)
  · rw [if_neg deep]
    exact Eval.bind_of_value (if_neg deep)

/-- A call that is allowed is one of the function that the callee is. -/
theorem callable_of_allow {callable' : Callable} (hc : m.callable? callee = some callable)
    (h : r.allow callee target m = .value callable' m') : callable' = callable := by
  by_cases ht : target.isSome = true → callable.isConstructor = true
  · rcases Eval.checkTimeout_cases r.settings m with ⟨m₁, h₁, _⟩ | ⟨_, _, _, h₁⟩
    · rw [allow_of_checked hc ht h₁] at h
      split at h
      next => cases h
      next =>
        cases h
        rfl
    · rw [allow_of_constructor hc ht, Eval.bind_of_fault h₁] at h
      cases h
  · rw [allow_of_not_constructor hc ht] at h
    cases h

/-- A call is refused for the depth exactly when as many are active as may be and nothing else is
wrong with it. -/
theorem allow_eq_callDepth_iff :
    r.allow callee target m = .fault .callDepth m' ↔
      ∃ callable, m.callable? callee = some callable ∧
        (target.isSome = true → callable.isConstructor = true) ∧
        Eval.checkTimeout r.settings m = .value () m' ∧
        r.settings.maxCallDepth ≤ m.stack.length := by
  constructor
  · intro h
    cases hc : m.callable? callee with
    | none =>
        obtain ⟨f, hf, ne⟩ := resolve_of_none hc
        cases (Eval.bind_of_fault hf).symm.trans h
        exact absurd rfl ne
    | some callable =>
        by_cases ht : target.isSome = true → callable.isConstructor = true
        · rcases Eval.checkTimeout_cases r.settings m with ⟨m₁, h₁, _⟩ | ⟨_, _, _, h₁⟩
          · rw [allow_of_checked hc ht h₁] at h
            split at h
            next deep =>
              cases h
              exact ⟨callable, rfl, ht, h₁, deep⟩
            next => cases h
          · rw [allow_of_constructor hc ht] at h
            cases (Eval.bind_of_fault h₁).symm.trans h
        · rw [allow_of_not_constructor hc ht] at h
          cases h
  · rintro ⟨callable, hc, ht, hm, deep⟩
    rw [allow_of_checked hc ht hm, if_pos deep]

end Runner

/-! ## The law of the call stack -/

/-- The stack is balanced after every operation, never higher than the limit in between if it was
not so before, and a call is refused exactly at the limit. -/
theorem callStack_balanced_bounded (settings : Settings) (fuel : Nat) :
    (∀ (α : Type) (op : Operation α) (m : Machine),
      (op.perform (settings.runner fuel) m).machine.stack = m.stack) ∧
    (∀ (alarm : (α : Type) → Eval α) (α : Type) (op : Operation α) (m : Machine),
      m.stack.length ≤ settings.maxCallDepth →
        op.perform (settings.watchedRunner alarm fuel) m =
          op.perform (settings.runner fuel) m) ∧
    ∀ (callee : Value) (target : Option ObjectId) (m m' : Machine),
      ((settings.runner fuel).allow callee target m = .fault .callDepth m' ↔
        ∃ callable, m.callable? callee = some callable ∧
          (target.isSome = true → callable.isConstructor = true) ∧
          Eval.checkTimeout settings m = .value () m' ∧
          settings.maxCallDepth ≤ m.stack.length) ∧
      ((settings.runner fuel).allow callee target m = .fault .callDepth m' →
        ∀ receiver arguments,
          run settings (fuel + 1) (.call callee receiver arguments target) m =
            .fault (.rangeError "Maximum call stack size exceeded") m') := by
  refine ⟨fun _ op m => perform_stack settings fuel op m,
    fun alarm _ op _ h => perform_watched settings alarm fuel op h, fun callee target m m' => ?_⟩
  exact ⟨Runner.allow_eq_callDepth_iff, fun refused _ _ => Eval.bind_of_fault refused⟩

/-- A machine with the function `f` whose body is `return f();`. -/
def recursiveMachine : Machine :=
  { Machine.empty with
    objects := #[⟨some .functionPrototype, .empty, .function (.closure
      ⟨some "f", ⟨some "f", [], .block [.ret (some (.call (.ident "f") []))], false, false, none⟩,
        ⟨0⟩, false⟩)⟩]
    scopes := #[⟨none, .undefined, .ofList [("f", ⟨.object ⟨0⟩, true⟩)]⟩] }

theorem callStack_balanced_bounded_recursive :
    recursiveMachine.stack.length ≤ 2 ∧
      ∃ m', (Operation.call (.object ⟨0⟩) .undefined [] none).perform
          (Settings.watchedRunner ⟨2, 0, .record, id⟩ (fun _ => Eval.exhausted) 12)
          recursiveMachine = .fault .callDepth m' ∧ m'.stack = [] := by
  have limit : recursiveMachine.stack.length ≤ 2 := Nat.zero_le 2
  have law := callStack_balanced_bounded ⟨2, 0, .record, id⟩ 12
  obtain ⟨m', ends⟩ : ∃ m', (Operation.call (.object ⟨0⟩) .undefined [] none).perform
      (Settings.runner ⟨2, 0, .record, id⟩ 12) recursiveMachine = .fault .callDepth m' :=
    ⟨_, rfl⟩
  have stack := law.1 _ (.call (.object ⟨0⟩) .undefined [] none) recursiveMachine
  rw [ends] at stack
  refine ⟨limit, m', ?_, stack⟩
  rw [law.2.1 (fun _ => Eval.exhausted) _ _ recursiveMachine limit, ends]

end ScriptTree
