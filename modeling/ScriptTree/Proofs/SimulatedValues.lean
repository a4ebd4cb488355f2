import ScriptTree.Proofs.Simulation

/-!
# Values in lockstep

Two runners are a pair when they run like tasks alike.  What the rules of the language do with
values is then done alike: reading properties, converting, applying operators and calling the
library.  None of it looks at the code of a function, so there is one rule for each definition and
its proof follows the definition step by step.
-/

namespace ScriptTree

namespace Slack

variable {L : Slack} {α : Type}

/-- Two runners that run like tasks alike. -/
structure Pair (L : Slack) (r r' : Runner) : Prop where
  settings : r.settings = r'.settings
  /-- Only a runner that may run out of fuel alone may have fewer turns. -/
  turns_le : L.tires ∨ r'.turns ≤ r.turns
  turns_ge : L.lags ∨ r.turns ≤ r'.turns
  eval : ∀ (s : ScopeId) {e e' : Expr}, e.Like L.toVeil e' → L.Same (r.eval s e) (r'.eval s e')
  exec : ∀ (s : ScopeId) {t t' : Stmt}, t.Like L.toVeil t' → L.Same (r.exec s t) (r'.exec s t')
  apply : ∀ (callee receiver : Value) (arguments : List Value) (target : Option ObjectId),
    L.Same (r.run (.call callee receiver arguments target))
      (r'.run (.call callee receiver arguments target))
  /-- A hidden expression is noticed when it is evaluated. -/
  hidden : L.hides → ∀ s, L.Stops (r.eval s .unsupported)

/-! ## Without a runner -/

namespace Sim

theorem deleteProperty (v : Value) (key : String) :
    L.Same (Eval.deleteProperty v key) (Eval.deleteProperty v key) := by
  match v with
  | .primitive p =>
      exact ite (fun _ => (describe _).andThen fun _ => fail _) fun _ => pure rfl
  | .object o =>
      refine (object o).bind fun found found' like => ?_
      have erases : L.Same (Eval.erase o key >>= fun _ => Pure.pure true)
          (Eval.erase o key >>= fun _ => Pure.pure true) :=
        (erase o key).andThen fun _ => pure rfl
      rw [like.properties]
      match found'.properties.get? key with
      | some (.data _ false) => exact pure rfl
      | some (.data _ true) | some (.accessor ..) | none => exact erases

theorem requireConstructor (v : Value) :
    L.Same (Eval.requireConstructor v) (Eval.requireConstructor v) := by
  match v with
  | .primitive p => exact (describe _).andThen fun _ => fail _
  | .object o =>
      refine (inspect fun alike => alike.isConstructor _).andThen fun _ => ?_
      exact ite (fun _ => pure rfl) fun _ => (describe _).andThen fun _ => fail _

theorem newTarget (own : ObjectId) (given : Option Value) :
    L.Same (Eval.newTarget own given) (Eval.newTarget own given) := by
  cases given with
  | none => exact pure rfl
  | some target => exact requireConstructor target

theorem objectConstructor (arguments : List Value) (target : Option ObjectId) :
    L.Same (objectConstructor arguments target) (objectConstructor arguments target) := by
  refine ite (fun _ => ?_) fun _ => (toObject _).andThen fun _ => pure rfl
  exact ite (fun _ => pure rfl) fun _ => createObject.andThen fun _ => pure rfl

theorem objectToString (receiver : Value) :
    L.Same (objectToString receiver) (objectToString receiver) := by
  refine (inspect fun {m m'} alike => ?_).andThen fun _ => pure rfl
  cases receiver with
  | primitive p => rfl
  | object o =>
      rw [Machine.tag, Machine.tag, alike.isFunction, (alike.object o).prototype]

theorem objectCreate (arguments : List Value) :
    L.Same (objectCreate arguments) (objectCreate arguments) := by
  rw [ScriptTree.objectCreate]
  match argument arguments 0 with
  | .object prototype => exact (createFrom prototype).andThen fun _ => pure rfl
  | .null =>
      exact (allocate_plain (by simp [Object.ofPrototype])).andThen fun _ => pure rfl
  | .undefined | .bool _ | .number _ | .string _ => exact (describe _).andThen fun _ => fail _

theorem getPrototypeOf (arguments : List Value) :
    L.Same (getPrototypeOf arguments) (getPrototypeOf arguments) := by
  refine (toObject _).andThen fun o => (object o).bind fun found found' like => ?_
  rw [like.prototype]
  cases found'.prototype with
  | some | none => exact pure rfl

theorem requireAccessor (role : String) (v : Value) :
    L.Same (Runner.requireAccessor role v) (Runner.requireAccessor role v) := by
  refine (isCallable v).andThen fun _ => ?_
  exact ite (fun _ => pure rfl) fun _ => (describe v).andThen fun _ => fail _

theorem fillError (kind : ErrorKind) (error : ObjectId) (message : Option String) :
    L.Same (Runner.fillError kind error message) (Runner.fillError kind error message) := by
  refine trace.andThen fun _ => ?_
  cases message with
  | some text => exact (define _ _ _).andThen fun _ => define _ _ _
  | none => exact define _ _ _

theorem boxOrAnswer (p : Primitive) (target : Option ObjectId) :
    L.Same (Eval.boxOrAnswer p target) (Eval.boxOrAnswer p target) := by
  cases target with
  | some o => exact (box o p).andThen fun _ => pure rfl
  | none => exact pure rfl

theorem unboxed? (v : Value) : L.Same (Eval.unboxed? v) (Eval.unboxed? v) := by
  match v with
  | .primitive p => exact pure rfl
  | .object o =>
      refine (object o).bind fun ⟨_, _, kind⟩ ⟨_, _, kind'⟩ like => ?_
      have hk := like.kind
      cases kind with
      | function c =>
          obtain ⟨_, rfl, _⟩ := hk
          exact pure rfl
      | ordinary | boxed | host =>
          obtain rfl := hk
          exact pure rfl

theorem thisPrimitive (name : String) (pick? : Primitive → Option α) (v : Value) :
    L.Same (Eval.thisPrimitive name pick? v) (Eval.thisPrimitive name pick? v) := by
  refine (unboxed? v).andThen fun found => ?_
  cases found.bind pick? with
  | some a => exact pure rfl
  | none => exact fail _

theorem radixTextOf (x radix : Float) :
    L.Same (Runner.radixTextOf x radix) (Runner.radixTextOf x radix) :=
  ite (fun _ => ite (fun _ => pure rfl) fun _ => pure rfl) fun _ => fail _

theorem hostFunction (f : HostFunction) (call : HostCall) : L.Same (f.run call) (f.run call) := by
  rw [HostFunction.run]
  cases f.answer call with
  | primitive | receiver | argument => exact pure rfl
  | typeError => exact fail _

end Sim

namespace Pair

open Sim (pure fail ite describe)

variable {r r' : Runner} (h : L.Pair r r')
include h

theorem call (callee receiver : Value) (arguments : List Value) :
    L.Same (r.call callee receiver arguments) (r'.call callee receiver arguments) :=
  h.apply callee receiver arguments none

/-! ## Properties -/

theorem valueOf (receiver : Value) (found : Option Property) :
    L.Same (r.valueOf receiver found) (r'.valueOf receiver found) := by
  match found with
  | none | some (.data _ _) => exact pure rfl
  | some (.accessor getter _) => exact ite (fun _ => pure rfl) fun _ => h.call getter receiver []

theorem readProperty (o : ObjectId) (key : String) (receiver : Value) :
    L.Same (r.readProperty o key receiver) (r'.readProperty o key receiver) :=
  (Sim.property? o key).andThen fun found => h.valueOf receiver found

theorem assignProperty (o : ObjectId) (key : String) (value receiver : Value) :
    L.Same (r.assignProperty o key value receiver) (r'.assignProperty o key value receiver) := by
  refine (Sim.property? o key).andThen fun found => ?_
  match found with
  | some (.accessor _ setter) =>
      refine ite (fun _ => pure rfl) fun _ => ?_
      exact (h.call setter receiver [value]).andThen fun _ => pure rfl
  | some (.data _ false) => exact pure rfl
  | some (.data _ true) | none => exact Sim.define o key _

theorem getProperty (v : Value) (key : String) :
    L.Same (r.getProperty v key) (r'.getProperty v key) := by
  match v with
  | .object o => exact h.readProperty o key _
  | .undefined | .null => exact (describe _).andThen fun _ => fail _
  | .bool _ | .number _ => exact h.readProperty _ key _
  | .string s =>
      simp only [Runner.getProperty, Primitive.prototype?, Primitive.property?]
      cases textProperty? s key with
      | none => exact h.readProperty _ key _
      | some property => exact h.valueOf _ _

theorem setProperty (v : Value) (key : String) (value : Value) :
    L.Same (r.setProperty v key value) (r'.setProperty v key value) := by
  match v with
  | .object o => exact h.assignProperty o key value _
  | .primitive p =>
      exact ite (fun _ => (describe _).andThen fun _ => fail _) fun _ => pure rfl

/-! ## Conversions -/

theorem primitiveFrom (o : ObjectId) (names : List String) :
    L.Same (r.primitiveFrom o names) (r'.primitiveFrom o names) := by
  induction names with
  | nil => exact fail _
  | cons name rest ih =>
      refine (h.readProperty o name _).andThen fun method => ?_
      refine (Sim.isCallable method).andThen fun _ => ite (fun _ => ?_) fun _ => ih
      refine (h.call method _ []).andThen fun result => ?_
      match result with
      | .primitive p => exact pure rfl
      | .object _ => exact ih

theorem toPrimitive (hint : Hint) (v : Value) :
    L.Same (r.toPrimitive hint v) (r'.toPrimitive hint v) := by
  match v with
  | .primitive p => exact pure rfl
  | .object o => exact h.primitiveFrom o hint.methods

theorem toNumber (v : Value) : L.Same (r.toNumber v) (r'.toNumber v) :=
  (h.toPrimitive .number v).andThen fun _ => pure rfl

theorem toText (v : Value) : L.Same (r.toText v) (r'.toText v) :=
  (h.toPrimitive .string v).andThen fun _ => pure rfl

theorem toKey (v : Value) : L.Same (r.toKey v) (r'.toKey v) := h.toText v

theorem toWord (v : Value) : L.Same (r.toWord v) (r'.toWord v) :=
  (h.toNumber v).andThen fun _ => pure rfl

theorem elementsFrom (v : Value) (count index : Nat) (done : List Value) :
    L.Same (r.elementsFrom v index count done) (r'.elementsFrom v index count done) := by
  induction count generalizing index done with
  | zero => exact pure rfl
  | succ count ih => exact (h.getProperty v _).andThen fun _ => ih _ _

theorem arrayLike (v : Value) : L.Same (r.arrayLike v) (r'.arrayLike v) := by
  refine (h.getProperty v "length").andThen fun length => (h.toNumber length).andThen ?_
  exact fun _ => h.elementsFrom v _ 0 []

/-! ## Equality, construction and membership -/

theorem looseEquals (left right : Value) :
    L.Same (r.looseEquals left right) (r'.looseEquals left right) := by
  match left, right with
  | .primitive p, .primitive q => exact pure rfl
  | .object a, .object b => exact pure rfl
  | .object a, .primitive q =>
      exact ite (fun _ => pure rfl) fun _ => (h.toPrimitive .number _).andThen fun _ => pure rfl
  | .primitive p, .object b =>
      exact ite (fun _ => pure rfl) fun _ => (h.toPrimitive .number _).andThen fun _ => pure rfl

theorem prototypeFor (constructor : ObjectId) :
    L.Same (r.prototypeFor constructor) (r'.prototypeFor constructor) := by
  refine (h.readProperty constructor "prototype" _).andThen fun found => ?_
  match found with
  | .object _ | .primitive _ => exact pure rfl

theorem construct (constructor : Value) (arguments : List Value) (newTarget : Option Value) :
    L.Same (r.construct constructor arguments newTarget)
      (r'.construct constructor arguments newTarget) := by
  refine (Sim.requireConstructor constructor).andThen fun own => ?_
  refine (Sim.newTarget own newTarget).andThen fun target => ?_
  refine (h.prototypeFor target).andThen fun prototype => ?_
  refine (Sim.createFrom prototype).andThen fun fresh => ?_
  refine (h.apply constructor (.object fresh) arguments (some fresh)).andThen fun result => ?_
  match result with
  | .object _ | .primitive _ => exact pure rfl

theorem isInstanceOf (v constructor : Value) :
    L.Same (r.isInstanceOf v constructor) (r'.isInstanceOf v constructor) := by
  refine (Sim.isCallable constructor).andThen fun answer => ?_
  match constructor, answer with
  | .primitive _, _ | .object _, false => exact fail _
  | .object c, true =>
      match v with
      | .primitive _ => exact pure rfl
      | .object o =>
          refine (h.readProperty c "prototype" _).andThen fun found => ?_
          match found with
          | .object prototype =>
              exact (Sim.object o).bind fun _ _ like => pure (by rw [like.prototype])
          | .primitive _ => exact fail _

theorem keyOfIn (key : Value) : L.Same (r.keyOfIn key) (r'.keyOfIn key) := by
  match key with
  | .string s => exact pure rfl
  | .number x => exact h.toKey _
  | .undefined | .null | .bool _ | .object _ => exact (describe _).andThen fun _ => fail _

theorem isIn (key target : Value) : L.Same (r.isIn key target) (r'.isIn key target) := by
  refine (h.keyOfIn key).andThen fun text => ?_
  match target with
  | .object o => exact (Sim.property? o text).andThen fun _ => pure rfl
  | .primitive _ => exact (describe _).andThen fun _ => fail _

/-! ## Operators -/

theorem onNumbers (f : Float → Float → Value) (left right : Value) :
    L.Same (r.onNumbers f left right) (r'.onNumbers f left right) :=
  (h.toNumber left).andThen fun _ => (h.toNumber right).andThen fun _ => pure rfl

theorem onWords (f : UInt32 → UInt32 → UInt32) (left right : Value) :
    L.Same (r.onWords f left right) (r'.onWords f left right) :=
  (h.toWord left).andThen fun _ => (h.toWord right).andThen fun _ => pure rfl

theorem shift (f : UInt32 → UInt32 → Float) (left right : Value) :
    L.Same (r.shift f left right) (r'.shift f left right) :=
  (h.toWord right).andThen fun _ => (h.toWord left).andThen fun _ => pure rfl

theorem add (left right : Value) : L.Same (r.add left right) (r'.add left right) := by
  unfold Runner.add
  split
  · exact (h.toText _).andThen fun _ => (h.toText _).andThen fun _ => pure rfl
  · exact (h.toText _).andThen fun _ => (h.toText _).andThen fun _ => pure rfl
  · exact h.onNumbers _ _ _

theorem applyBinary (op : BinaryOp) (left right : Value) :
    L.Same (r.applyBinary op left right) (r'.applyBinary op left right) := by
  cases op with
  | add => exact h.add left right
  | sub | mul | div | mod | exp | lt | ltEq | gt | gtEq =>
      rw [Runner.applyBinary, Runner.applyBinary]
      exact h.onNumbers _ left right
  | strictEq | strictNotEq => exact pure rfl
  | eq | notEq => exact (h.looseEquals left right).andThen fun _ => pure rfl
  | bitAnd | bitOr | bitXor =>
      rw [Runner.applyBinary, Runner.applyBinary]
      exact h.onWords _ left right
  | shiftLeft | shiftRight | shiftRightUnsigned =>
      rw [Runner.applyBinary, Runner.applyBinary]
      exact h.shift _ left right
  | isIn => exact (h.isIn left right).andThen fun _ => pure rfl
  | instanceOf => exact (h.isInstanceOf left right).andThen fun _ => pure rfl

theorem applyUnary (op : UnaryOp) (v : Value) :
    L.Same (r.applyUnary op v) (r'.applyUnary op v) := by
  cases op with
  | minus | plus => exact (h.toNumber v).andThen fun _ => pure rfl
  | bitNot => exact (h.toWord v).andThen fun _ => pure rfl
  | typeof => exact (Sim.inspect fun alike => alike.typeOf v).andThen fun _ => pure rfl
  | not | void | delete => exact pure rfl

/-! ## The library -/

theorem hasOwnProperty (receiver : Value) (arguments : List Value) :
    L.Same (r.hasOwnProperty receiver arguments) (r'.hasOwnProperty receiver arguments) := by
  refine (h.toKey _).andThen fun key => ?_
  match receiver with
  | .object o => exact (Sim.object o).bind fun _ _ like => pure (by rw [like.own? key])
  | .primitive p => exact ite (fun _ => fail _) fun _ => pure rfl

theorem describedProperty (attributes : ObjectId) :
    L.Same (r.describedProperty attributes) (r'.describedProperty attributes) := by
  have has (key : String) : L.Same (do return (← Eval.property? attributes key).isSome)
      (do return (← Eval.property? attributes key).isSome) :=
    (Sim.property? attributes key).andThen fun _ => pure rfl
  have read (key : String) := h.readProperty attributes key (.object attributes)
  refine (has "get").andThen fun _ => (has "set").andThen fun _ => ite (fun _ => ?_) fun _ => ?_
  · refine (has "value").andThen fun _ => (has "writable").andThen fun _ => ?_
    refine ite (fun _ => fail _) fun _ => ?_
    refine (read "get").andThen fun getter => (read "set").andThen fun setter => ?_
    refine (Sim.requireAccessor "Getter" getter).andThen fun _ => ?_
    exact (Sim.requireAccessor "Setter" setter).andThen fun _ => pure rfl
  · exact (read "value").andThen fun _ => (read "writable").andThen fun _ => pure rfl

theorem defineProperty (arguments : List Value) :
    L.Same (r.defineProperty arguments) (r'.defineProperty arguments) := by
  rw [Runner.defineProperty, Runner.defineProperty]
  match argument arguments 0 with
  | .primitive _ => exact fail _
  | .object o =>
      refine (h.toKey _).andThen fun key => ?_
      match argument arguments 2 with
      | .primitive p => exact (describe _).andThen fun _ => fail _
      | .object attributes =>
          refine (h.describedProperty attributes).andThen fun property => ?_
          exact (Sim.define o key property).andThen fun _ => pure rfl

theorem functionCall (receiver : Value) (arguments : List Value) :
    L.Same (r.functionCall receiver arguments) (r'.functionCall receiver arguments) :=
  h.call _ _ _

theorem functionApply (receiver : Value) (arguments : List Value) :
    L.Same (r.functionApply receiver arguments) (r'.functionApply receiver arguments) := by
  rw [Runner.functionApply, Runner.functionApply]
  match argument arguments 1 with
  | .object o => exact (h.arrayLike _).andThen fun _ => h.call _ _ _
  | .primitive p =>
      refine ite (fun _ => h.call _ _ _) fun _ => ?_
      exact fail _

theorem messageText (given : Value) : L.Same (r.messageText given) (r'.messageText given) :=
  ite (fun _ => pure rfl) fun _ => (h.toText given).andThen fun _ => pure rfl

theorem errorConstructor (kind : ErrorKind) (arguments : List Value) (target : Option ObjectId) :
    L.Same (r.errorConstructor kind arguments target)
      (r'.errorConstructor kind arguments target) := by
  refine (h.messageText _).andThen fun message => ?_
  cases target with
  | none => exact (Sim.createError kind _).andThen fun _ => pure rfl
  | some error => exact (Sim.fillError kind error message).andThen fun _ => pure rfl

theorem textProperty (o : ObjectId) (key default : String) :
    L.Same (r.textProperty o key default) (r'.textProperty o key default) := by
  refine (h.readProperty o key _).andThen fun value => ?_
  exact ite (fun _ => pure rfl) fun _ => h.toText value

theorem errorToString (receiver : Value) :
    L.Same (r.errorToString receiver) (r'.errorToString receiver) := by
  match receiver with
  | .primitive _ => exact fail _
  | .object o =>
      refine (h.textProperty o "name" "Error").andThen fun name => ?_
      exact (h.textProperty o "message" "").andThen fun message => pure rfl

theorem stringConstructor (arguments : List Value) (target : Option ObjectId) :
    L.Same (r.stringConstructor arguments target) (r'.stringConstructor arguments target) :=
  ite (fun _ => Sim.boxOrAnswer _ _) fun _ => (h.toText _).andThen fun _ => Sim.boxOrAnswer _ _

theorem numberConstructor (arguments : List Value) (target : Option ObjectId) :
    L.Same (r.numberConstructor arguments target) (r'.numberConstructor arguments target) :=
  ite (fun _ => Sim.boxOrAnswer _ _) fun _ => (h.toNumber _).andThen fun _ => Sim.boxOrAnswer _ _

theorem numberToString (receiver : Value) (arguments : List Value) :
    L.Same (r.numberToString receiver arguments) (r'.numberToString receiver arguments) := by
  refine (Sim.thisPrimitive _ _ receiver).andThen fun x => ?_
  refine ite (fun _ => Sim.radixTextOf x 10) fun _ => ?_
  exact (h.toNumber _).andThen fun _ => Sim.radixTextOf x _

theorem toTexts (values : List Value) : L.Same (r.toTexts values) (r'.toTexts values) := by
  induction values with
  | nil => exact pure rfl
  | cons v rest ih => exact (h.toText v).andThen fun _ => ih.andThen fun _ => pure rfl

theorem printValues (level : Level) (arguments : List Value) :
    L.Same (r.printValues level arguments) (r'.printValues level arguments) := by
  refine (h.toTexts arguments).andThen fun texts => ?_
  rw [h.settings]
  exact (Sim.print _ level _).andThen fun _ => pure rfl

theorem runBuiltin (b : Builtin) (receiver : Value) (arguments : List Value)
    (target : Option ObjectId) :
    L.Same (r.runBuiltin b receiver arguments target)
      (r'.runBuiltin b receiver arguments target) := by
  cases b with
  | objectConstructor => exact Sim.objectConstructor arguments target
  | hasOwnProperty => exact h.hasOwnProperty receiver arguments
  | objectToString => exact Sim.objectToString receiver
  | objectValueOf => exact (Sim.toObject receiver).andThen fun _ => pure rfl
  | objectCreate => exact Sim.objectCreate arguments
  | getPrototypeOf => exact Sim.getPrototypeOf arguments
  | defineProperty => exact h.defineProperty arguments
  | functionConstructor => exact Sim.unsupported _
  | functionCall => exact h.functionCall receiver arguments
  | functionApply => exact h.functionApply receiver arguments
  | arrayConstructor | symbolConstructor => exact pure rfl
  | stringConstructor => exact h.stringConstructor arguments target
  | numberConstructor => exact h.numberConstructor arguments target
  | numberToString => exact h.numberToString receiver arguments
  | booleanConstructor => exact Sim.boxOrAnswer _ target
  | stringToString | stringValueOf | numberValueOf | booleanToString | booleanValueOf =>
      exact (Sim.thisPrimitive _ _ receiver).andThen fun _ => pure rfl
  | errorConstructor kind => exact h.errorConstructor kind arguments target
  | errorToString => exact h.errorToString receiver
  | print level => exact h.printValues level arguments

end Pair

end Slack

end ScriptTree
