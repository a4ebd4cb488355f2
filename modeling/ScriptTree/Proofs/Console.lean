import ScriptTree.Proofs.CallStack

/-!
# The console

A script writes lines and never reads one.  So an operation adds the same lines to every console,
and ends in the same way whatever was there before, also when its lines are thrown away
(`Operation.perform_console`).

A call of `console.log` and the like converts its arguments one after the other, which may run
scripts that print, and then adds one line.  When a conversion fails there is no such line
(`Runner.call_print`).
-/

namespace ScriptTree

/-- The outcome with another console. -/
def Outcome.withConsole {α : Type} (console : Array Line) : Outcome α → Outcome α
  | .value a m => .value a { m with console := console }
  | .fault f m => .fault f { m with console := console }
  | .exhausted m => .exhausted { m with console := console }

/-- What becomes of a console when lines are written. -/
def ConsoleMode.write (mode : ConsoleMode) (console lines : Array Line) : Array Line :=
  match mode with
  | .record => console ++ lines
  | .discard => console

theorem ConsoleMode.write_empty (mode : ConsoleMode) (console : Array Line) :
    mode.write console #[] = console := by
  cases mode with
  | record => exact Array.append_empty
  | discard => rfl

theorem ConsoleMode.write_append (mode : ConsoleMode) (console lines more : Array Line) :
    mode.write (mode.write console lines) more = mode.write console (lines ++ more) := by
  cases mode with
  | record => exact Array.append_assoc
  | discard => rfl

/-! ## The discipline -/

namespace Discipline

/-- Whatever is printed is added to the console, and is what a double with its own console and mode
prints. -/
def printing (mode : ConsoleMode) : Discipline where
  World := Machine × Array Line
  machine := Prod.fst
  console := Prod.snd
  reaches _ w w' := ∃ lines, w'.1.console = w.1.console ++ lines ∧ w'.2 = mode.write w.2 lines
  value _ _ := True
  slot _ _ := True
  scope _ _ := True
  target _ _ := True
  builtin _ := True
  fault _ _ := True
  checks := .anything
  fits _ := True
  room _ _ _ := True
  mayEnter _ := True
  mayExhaust := True
  inStep _ := True

variable {mode : ConsoleMode} {fp : Footprint} {w : (printing mode).World}

theorem printing_carefree : (printing mode).Carefree where
  value _ _ := trivial
  scope _ _ := trivial
  builtin _ := trivial
  fault _ _ := trivial
  fits _ := trivial
  room _ _ _ := trivial
  sees _ _ _ := trivial
  mayExhaust := trivial
  slot _ _ := trivial
  checks := rfl

/-- Nothing is printed. -/
theorem printing_reaches {w' : (printing mode).World} (machine : w'.1.console = w.1.console)
    (double : w'.2 = w.2) : (printing mode).reaches fp w w' := by
  refine ⟨#[], ?_, ?_⟩
  · rw [machine, Array.append_empty]
  · rw [double, mode.write_empty]

/-- A change that leaves the console alone. -/
theorem printing_follows (change : Machine → Machine)
    (console : (change w.1).console = w.1.console) :
    ∃ w', (printing mode).Follows fp w w' change :=
  ⟨⟨change w.1, w.2⟩, printing_reaches console rfl, rfl, rfl⟩

theorem printing_changes : (printing mode).Changes where
  refl _ _ := printing_reaches rfl rfl
  trans := by
    rintro fp u v w ⟨lines, machine, double⟩ ⟨more, machine', double'⟩
    refine ⟨lines ++ more, ?_, ?_⟩
    · rw [machine', machine, Array.append_assoc]
    · rw [double', double, mode.write_append]
  widenScope h := h
  widenTarget h := h
  dropScope _ h := h
  dropTarget _ h := h
  target_mono _ _ := trivial
  allocates {w o} _ := by
    obtain ⟨w', follows⟩ : ∃ w', (printing mode).Follows .nothing w w' fun m =>
      { m with objects := m.objects.push o } := printing_follows _ rfl
    exact ⟨w', follows, fun _ _ => trivial, fun _ => trivial⟩
  defines _ _ := printing_follows _ rfl
  erases _ := printing_follows _ rfl
  boxes _ _ := printing_follows _ rfl
  opensScope := printing_follows _ rfl
  declares _ _ := printing_follows _ rfl
  assigns _ _ := printing_follows _ rfl
  setsClock _ _ := printing_follows _ rfl
  enters {w} frame _ := by
    refine ⟨⟨{ w.1 with stack := frame :: w.1.stack }, w.2⟩, rfl, rfl, fun _ _ => trivial, ?_⟩
    intro fp w₂ reaches
    exact ⟨⟨{ w₂.1 with stack := w₂.1.stack.tail }, w₂.2⟩, reaches, rfl, rfl, fun _ => trivial⟩

theorem printing_lawful : (printing mode).Lawful := printing_carefree.lawful printing_changes

/-- A line is written to both consoles, to each as its mode says. -/
theorem printing_print (settings : Settings) (level : Level) (text : String) :
    (printing mode).Keeps fp w (Eval.print { settings with console := .record } level text)
      (Eval.print { settings with console := mode } level text) fun _ _ => True := by
  let line : Line := ⟨level, text⟩
  let after : (printing mode).World :=
    ⟨{ w.1 with console := w.1.console.push line }, mode.write w.2 #[line]⟩
  refine .value after () ⟨#[line], ?_, rfl⟩ rfl ?_ trivial
  · exact Array.push_eq_append
  · cases mode with
    | record =>
        show Outcome.value () { w.1 with console := w.2.push line } =
          .value () { w.1 with console := w.2 ++ #[line] }
        rw [Array.push_eq_append]
    | discard => rfl

theorem printing_agree (settings : Settings) :
    (printing mode).Agree { settings with console := .record }
      { settings with console := mode } where
  checkTimeout _ := printing_lawful.checkTimeout settings fun _ _ _ => trivial
  checkDepth _ := printing_lawful.checkDepth settings fun _ => trivial
  print _ level text := printing_print settings level text

theorem printing_runner (settings : Settings) (mode : ConsoleMode) (fuel : Nat) :
    (printing mode).Matches fuel (Settings.runner { settings with console := .record } fuel)
      (Settings.runner { settings with console := mode } fuel) :=
  printing_lawful.runner (printing_agree settings) (Nat.le_refl fuel) fun _ => rfl

/-- From an empty console, an action ends with the lines that it prints.  Its companion ends alike,
with those lines written to its own console. -/
theorem Keeps.printed {α : Type} {x y : Eval α} {Q : (printing mode).World → α → Prop}
    {m : Machine} {before : Array Line}
    (hx : (printing mode).Keeps fp ⟨{ m with console := #[] }, before⟩ x y Q) :
    y { m with console := before } = (x { m with console := #[] }).withConsole
      (mode.write before (x { m with console := #[] }).machine.console) := by
  have written {w' : (printing mode).World}
      (reaches : (printing mode).reaches fp ⟨{ m with console := #[] }, before⟩ w') :
      w'.2 = mode.write before w'.1.console := by
    -- the console was empty, so what is on it now are the lines
    obtain ⟨lines, machine, double⟩ := reaches
    rw [double, machine]
    simp
  cases hx with
  | value w' a reaches left right _ =>
      have left : x { m with console := #[] } = .value a w'.1 := left
      rw [left]
      refine right.trans ?_
      rw [double, Outcome.withConsole, Outcome.machine, ← written reaches]
      rfl
  | fault w' f reaches left right _ =>
      have left : x { m with console := #[] } = .fault f w'.1 := left
      rw [left]
      refine right.trans ?_
      rw [double, Outcome.withConsole, Outcome.machine, ← written reaches]
      rfl
  | exhausted w' reaches left _ right =>
      have left : x { m with console := #[] } = .exhausted w'.1 := left
      rw [left]
      refine (right trivial).trans ?_
      rw [double, Outcome.withConsole, Outcome.machine, ← written reaches]
      rfl

end Discipline

/-! ## Operations -/

/-- An operation ends in one way and prints one list of lines, whatever is on the console, and
whether the lines are kept or not. -/
theorem Operation.perform_console {α : Type} (op : Operation α) (settings : Settings) (fuel : Nat)
    (m : Machine) :
    ∃ (outcome : Outcome α) (lines : Array Line), ∀ mode before,
      op.perform (Settings.runner { settings with console := mode } fuel)
        { m with console := before } = outcome.withConsole (mode.write before lines) := by
  -- every run is compared with the one that records on an empty console
  let outcome := op.perform (Settings.runner { settings with console := .record } fuel)
    { m with console := #[] }
  refine ⟨outcome, outcome.machine.console, fun mode before => ?_⟩
  have runs := Discipline.printing_runner settings mode fuel
  have keeps := runs.operation op (w := ⟨{ m with console := #[] }, before⟩)
    (Discipline.printing_carefree.requests fun _ _ => trivial)
  exact keeps.printed

/-! ## Printing -/

namespace Runner

/-- Converts the arguments of a call, in the frame of the call, once it is allowed. -/
def convertArguments (r : Runner) (callee : Value) (arguments : List Value)
    (target : Option ObjectId) : Eval (List String) := do
  let callable ← r.allow callee target
  Eval.withFrame ⟨callable.name?, callable.position?⟩ (r.toTexts arguments)

/-- The first conversion that fails ends them all. -/
theorem toTexts_of_fault {r : Runner} {before : List Value} {v : Value} {texts : List String}
    {f : Fault} {m n n' : Machine} (converted : r.toTexts before m = .value texts n)
    (fails : r.toText v n = .fault f n') (after : List Value) :
    r.toTexts (before ++ v :: after) m = .fault f n' := by
  induction before generalizing m texts with
  | nil =>
      cases converted
      exact Eval.bind_of_fault fails
  | cons u before ih =>
      rw [toTexts] at converted
      cases first : r.toText u m with
      | value text m₁ =>
          rw [Eval.bind_of_value first] at converted
          cases rest : r.toTexts before m₁ with
          | value others m₂ =>
              rw [Eval.bind_of_value rest] at converted
              cases converted
              refine (Eval.bind_of_value first).trans ?_
              exact Eval.bind_of_fault (ih rest)
          | fault e m₂ =>
              rw [Eval.bind_of_fault rest] at converted
              cases converted
          | exhausted m₂ =>
              rw [Eval.bind_of_exhausted rest] at converted
              cases converted
      | fault e m₁ =>
          rw [Eval.bind_of_fault first] at converted
          cases converted
      | exhausted m₁ =>
          rw [Eval.bind_of_exhausted first] at converted
          cases converted

end Runner

/-- One more line when all arguments are converted, and nothing else. -/
def Outcome.printed (level : Level) : Outcome (List String) → Outcome Value
  | .value texts m =>
      .value .undefined { m with console := m.console.push ⟨level, " ".intercalate texts⟩ }
  | .fault f m => .fault f m
  | .exhausted m => .exhausted m

namespace Runner

variable {settings : Settings} {m : Machine} {callee : Value} {level : Level}

/-- A frame more or less makes no difference to what is printed at the end. -/
theorem withFrame_printValues (r : Runner) (recording : r.settings.console = .record)
    (frame : Frame) (arguments : List Value) (m : Machine) :
    Eval.withFrame frame (r.printValues level arguments) m =
      (Eval.withFrame frame (r.toTexts arguments) m).printed level := by
  rw [Eval.withFrame, Eval.withFrame, printValues]
  cases converted : r.toTexts arguments { m with stack := frame :: m.stack } with
  | value texts n =>
      have prints : Eval.print r.settings level (" ".intercalate texts) n =
          .value () { n with console := n.console.push ⟨level, " ".intercalate texts⟩ } := by
        rw [Eval.print, recording]
      rw [Eval.bind_of_value converted, Eval.bind_of_value prints]
      rfl
  | fault f n =>
      rw [Eval.bind_of_fault converted]
      rfl
  | exhausted n =>
      rw [Eval.bind_of_exhausted converted]
      rfl

/-- A call that prints does what its conversions do, and prints at the end. -/
theorem call_print (recording : settings.console = .record)
    (h : m.callable? callee = some (.builtin (.print level))) (fuel : Nat) (receiver : Value)
    (arguments : List Value) (target : Option ObjectId) :
    (Operation.call callee receiver arguments target).perform (settings.runner (fuel + 1)) m =
      ((settings.runner fuel).convertArguments callee arguments target m).printed level := by
  let r := settings.runner fuel
  show (r.allow callee target >>= _) m = ((r.allow callee target >>= _) m).printed level
  cases allowed : r.allow callee target m with
  | value callable m₁ =>
      have same : callable = .builtin (.print level) := callable_of_allow h allowed
      subst same
      rw [Eval.bind_of_value allowed, Eval.bind_of_value allowed]
      exact withFrame_printValues r recording _ arguments m₁
  | fault f m₁ =>
      rw [Eval.bind_of_fault allowed, Eval.bind_of_fault allowed]
      rfl
  | exhausted m₁ =>
      rw [Eval.bind_of_exhausted allowed, Eval.bind_of_exhausted allowed]
      rfl

/-- Converting arguments only adds lines. -/
theorem convertArguments_console (settings : Settings) (fuel : Nat) (callee : Value)
    (arguments : List Value) (target : Option ObjectId) (m : Machine) :
    ∃ lines, ((Settings.runner { settings with console := .record } fuel).convertArguments callee
      arguments target m).machine.console = m.console ++ lines := by
  have runs := Discipline.printing_runner settings .record fuel
  let w : (Discipline.printing .record).World := ⟨m, m.console⟩
  have keeps : (Discipline.printing .record).Keeps .nothing w
      ((Settings.runner { settings with console := .record } fuel).convertArguments callee arguments
        target)
      ((Settings.runner { settings with console := .record } fuel).convertArguments callee arguments
        target) fun _ _ => True := by
    refine runs.law.bind (runs.allow (Discipline.printing_agree settings) callee target) ?_
    rintro callable w₁ _ ⟨_, may⟩
    refine runs.law.inFrame (k := fuel) (fun _ _ _ _ _ => trivial) may trivial ?_
    intro w₂ enters
    exact runs.toTexts (fun _ _ => trivial) enters.calls
  obtain ⟨w', ⟨lines, machine, _⟩, ends⟩ := keeps.outcome
  refine ⟨lines, ?_⟩
  rw [← machine]
  exact congrArg Machine.console ends

/-- A conversion that fails ends the call. -/
theorem convertArguments_of_fault {r : Runner} {callable : Callable} {target : Option ObjectId}
    {before : List Value} {v : Value} {texts : List String} {f : Fault} {m₁ n n' : Machine}
    (allowed : r.allow callee target m = .value callable m₁)
    (converted : r.toTexts before
      { m₁ with stack := ⟨callable.name?, callable.position?⟩ :: m₁.stack } = .value texts n)
    (fails : r.toText v n = .fault f n') (after : List Value) :
    r.convertArguments callee (before ++ v :: after) target m =
      .fault f { n' with stack := n'.stack.tail } := by
  refine (Eval.bind_of_value allowed).trans ?_
  rw [Eval.withFrame, toTexts_of_fault converted fails after]

end Runner

/-- An operation ends in one way, and adds one and the same list of lines to every console, whatever
is there before; when lines are thrown away it ends in that way too.  A call that prints adds one
line after those that the conversions of its arguments add, and if a conversion fails, none. -/
theorem console_write_only (settings : Settings) (fuel : Nat) :
    (∀ (α : Type) (op : Operation α) (m : Machine),
      ∃ (outcome : Outcome α) (lines : Array Line), ∀ before : Array Line,
        op.perform (Settings.runner { settings with console := .record } fuel)
          { m with console := before } = outcome.withConsole (before ++ lines) ∧
        op.perform (Settings.runner { settings with console := .discard } fuel)
          { m with console := before } = outcome.withConsole before) ∧
    ∀ (callee receiver : Value) (arguments : List Value) (target : Option ObjectId) (level : Level)
      (m : Machine), m.callable? callee = some (.builtin (.print level)) →
      let r := Settings.runner { settings with console := .record } fuel
      let converted := r.convertArguments callee arguments target m
      (∃ lines, converted.machine.console = m.console ++ lines) ∧
      (Operation.call callee receiver arguments target).perform
        (Settings.runner { settings with console := .record } (fuel + 1)) m =
          converted.printed level ∧
      ∀ before v after callable m₁ texts n f n', arguments = before ++ v :: after →
        r.allow callee target m = .value callable m₁ →
        r.toTexts before { m₁ with stack := ⟨callable.name?, callable.position?⟩ :: m₁.stack } =
          .value texts n →
        r.toText v n = .fault f n' → converted = .fault f { n' with stack := n'.stack.tail } := by
  constructor
  · intro α op m
    obtain ⟨outcome, lines, ends⟩ := op.perform_console settings fuel m
    exact ⟨outcome, lines, fun before => ⟨ends .record before, ends .discard before⟩⟩
  · intro callee receiver arguments target level m h r converted
    refine ⟨Runner.convertArguments_console settings fuel callee arguments target m,
      Runner.call_print rfl h fuel receiver arguments target, ?_⟩
    intro before v after callable m₁ texts n f n' split allowed first fails
    subst split
    exact Runner.convertArguments_of_fault allowed first fails after

/-- A machine with `log`, and an object `o` with the method
`toString: function () { log("inner"); return "outer"; }`. -/
def loggingMachine : Machine :=
  { Machine.empty with
    objects := #[⟨some .functionPrototype, .empty, .function (.builtin (.print .log))⟩,
      ⟨none, .ofList [("toString", .data (.object ⟨2⟩) true)], .ordinary⟩,
      ⟨some .functionPrototype, .empty, .function (.closure ⟨none, ⟨none, [], .block
        [.expression (.call (.ident "log") [.literal ⟨.string "inner", none, none⟩]),
          .ret (some (.literal ⟨.string "outer", none, none⟩))], false, false, none⟩, ⟨0⟩, false⟩)⟩]
    scopes := #[⟨none, .undefined, .ofList [("log", ⟨.object ⟨0⟩, false⟩)]⟩] }

theorem console_write_only_nested :
    let op := Operation.call (.object ⟨0⟩) .undefined [.object ⟨1⟩] none
    let r := Settings.runner ⟨5, 0, .record, id⟩ 9
    loggingMachine.callable? (.object ⟨0⟩) = some (.builtin (.print .log)) ∧
      op.perform (Settings.runner ⟨5, 0, .record, id⟩ 10) loggingMachine =
        (r.convertArguments (.object ⟨0⟩) [.object ⟨1⟩] none loggingMachine).printed .log ∧
      (op.perform (Settings.runner ⟨5, 0, .record, id⟩ 10) loggingMachine).machine.console =
        #[⟨.log, "inner"⟩, ⟨.log, "outer"⟩] := by
  intro op r
  have log : loggingMachine.callable? (.object ⟨0⟩) = some (.builtin (.print .log)) := rfl
  have prints := (console_write_only ⟨5, 0, .record, id⟩ 9).2 (.object ⟨0⟩) .undefined
    [.object ⟨1⟩] none .log loggingMachine log
  exact ⟨log, prints.2.1, by decide +kernel⟩

end ScriptTree
