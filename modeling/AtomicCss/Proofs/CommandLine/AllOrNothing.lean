import AtomicCss.Proofs.CommandLine.Arguments
import AtomicCss.Proofs.CommandLine.Machine

/-!
# All or nothing

A run of the program has three ends. It fails, and then it has printed nothing and the machine is as
it was; it prints, and the machine is as it was as well; or it writes what it would have printed to
the file that the last output option names, and changes nothing else. A failing write leaves the
machine alone, so that it is a failure like any other.

`Machine.Ends` lists these ends. That there are no others follows stage by stage: reading the
settings and reading the candidates either fail or go on, in the same state and whatever comes next.
None of this depends on how configuration files are read, so it holds for every reader of them.
-/

namespace AtomicCss.Machine

variable (machine : Machine) (state : machine.State) (reader : Settings.Reader)

/-! ### Stages -/

/-- Reading the settings fails, or goes on with settings that do not depend on what comes next. -/
theorem run_withSettings (config : Option Text) :
    (∃ failure, ∀ next,
      machine.run state (.withSettings reader config next) = (.failure failure, state)) ∨
    ∃ settings, ∀ next,
      machine.run state (.withSettings reader config next) = machine.run state (next settings) := by
  cases config with
  | none => exact .inr ⟨Settings.standard, fun _ => rfl⟩
  | some path =>
      cases read : machine.readFile state path with
      | error error =>
          refine .inl ⟨.unreadableConfig path error, fun next => ?_⟩
          simp only [Session.withSettings, run, read]
          rfl
      | ok text =>
          cases parsed : reader text with
          | error reason =>
              refine .inl ⟨.invalidConfig path reason, fun next => ?_⟩
              simp only [Session.withSettings, run, read, Session.orFail, parsed]
              rfl
          | ok settings =>
              refine .inr ⟨settings, fun next => ?_⟩
              simp only [Session.withSettings, run, read, Session.orFail, parsed]

theorem run_withCandidates (given : List Text) :
    (∃ failure, ∀ next,
      machine.run state (.withCandidates given next) = (.failure failure, state)) ∨
    ∃ candidates, ∀ next,
      machine.run state (.withCandidates given next) = machine.run state (next candidates) := by
  cases given with
  | cons first others => exact .inr ⟨first :: others, fun _ => rfl⟩
  | nil =>
      cases read : machine.readInput state with
      | error error =>
          refine .inl ⟨.unreadableInput error, fun next => ?_⟩
          simp only [Session.withCandidates, List.isEmpty_nil, if_true, run, read]
          rfl
      | ok text =>
          refine .inr ⟨text.words, fun next => ?_⟩
          simp only [Session.withCandidates, List.isEmpty_nil, if_true, run, read]
          rfl

/-- Compiling fails before it gets to its batch, or gets to the same batch wherever the style sheet
is to go. -/
theorem run_compile (options : CompileOptions) :
    (∃ failure, ∀ output,
      machine.run state (.compile reader { options with output := output }) =
        (.failure failure, state)) ∨
    ∃ outcomes, ∀ output,
      machine.run state (.compile reader { options with output := output }) =
        machine.run state (.publish { options with output := output } outcomes) := by
  rcases machine.run_withSettings state reader options.config with
    ⟨failure, fails⟩ | ⟨settings, goesOn⟩
  · exact .inl ⟨failure, fun _ => fails _⟩
  · rcases machine.run_withCandidates state options.candidates with
      ⟨failure, fails⟩ | ⟨candidates, reaches⟩
    · exact .inl ⟨failure, fun _ => (goesOn _).trans (fails _)⟩
    · exact .inr ⟨(Compiler.ofSettings settings).compileAll candidates,
        fun _ => (goesOn _).trans (reaches _)⟩

theorem run_explain (candidate : Text) (config : Option Text) :
    (∃ failure, machine.run state (.explain reader candidate config) = (.failure failure, state)) ∨
      ∃ output,
        machine.run state (.explain reader candidate config) = (.success output [], state) := by
  rcases machine.run_withSettings state reader config with ⟨failure, fails⟩ | ⟨settings, goesOn⟩
  · exact .inl ⟨failure, fails _⟩
  · exact .inr ⟨_, goesOn _⟩

/-- Publishing prints a sheet, or writes the same sheet to a file, or fails to. -/
theorem run_publish (options : CompileOptions) (outcomes : List Outcome) :
    ∃ sheet errors,
      machine.run state (.publish { options with output := none } outcomes) =
        (.success sheet errors, state) ∧
      ∀ path, machine.run state (.publish { options with output := some path } outcomes) =
        match machine.writeFile state path sheet with
        | .ok changed => (.success [] errors, changed)
        | .error error => (.failure (.unwritableOutput path error), state) := by
  refine ⟨_, _, rfl, fun path => ?_⟩
  simp only [Session.publish, run]
  cases machine.writeFile state path _ with
  | ok changed => rfl
  | error error => rfl

/-! ### Ends -/

/-- How a run with these arguments may end: with which report, and in which state. -/
inductive Ends (arguments : List Text) : Report × machine.State → Prop
  | failed (failure : Failure) : Ends arguments (.failure failure, state)
  | printed (output errors : Text)
      (unnamed : ∀ options, Command.ofArguments arguments = .ok (.compile options) →
        options.output = none) :
      Ends arguments (.success output errors, state)
  | written {options : CompileOptions} {path sheet errors : Text} {changed : machine.State}
      (command : Command.ofArguments arguments = .ok (.compile options))
      (isOutput : options.output = some path)
      (prints : machine.run state (.compile reader { options with output := none }) =
        (.success sheet errors, state))
      (writes : machine.writeFile state path sheet = .ok changed) :
      Ends arguments (.success [] errors, changed)

theorem ends_compile {arguments : List Text} {options : CompileOptions}
    (command : Command.ofArguments arguments = .ok (.compile options)) :
    machine.Ends state reader arguments (machine.run state (.compile reader options)) := by
  have sameOptions {output : Option Text} (isOutput : options.output = output) :
      options = { options with output := output } := by rw [← isOutput]
  rcases machine.run_compile state reader options with ⟨failure, fails⟩ | ⟨outcomes, reaches⟩
  · rw [sameOptions rfl, fails]
    exact .failed failure
  · rcases machine.run_publish state options outcomes with ⟨sheet, errors, prints, writes⟩
    cases isOutput : options.output with
    | none =>
        rw [sameOptions isOutput, reaches, prints]
        refine .printed sheet errors fun other otherCommand => ?_
        rw [command] at otherCommand
        cases otherCommand
        exact isOutput
    | some path =>
        rw [sameOptions isOutput, reaches, writes]
        cases written : machine.writeFile state path sheet with
        | ok changed => exact .written command isOutput ((reaches none).trans prints) written
        | error error => exact .failed (.unwritableOutput path error)

theorem ends_run (arguments : List Text) :
    machine.Ends state reader arguments
      (machine.run state (.ofArgumentsWith reader arguments)) := by
  rw [Session.ofArgumentsWith]
  cases isCommand : Command.ofArguments arguments with
  | error error => exact .failed (.arguments error)
  | ok command =>
      cases command with
      | compile options => exact machine.ends_compile state reader isCommand
      | help =>
          refine .printed Session.helpText [] fun options isCompile => ?_
          rw [isCommand] at isCompile
          cases isCompile
      | explain candidate config =>
          rcases machine.run_explain state reader candidate config with
            ⟨failure, fails⟩ | ⟨output, prints⟩
          · simp only [Session.ofCommand, fails]
            exact .failed failure
          · simp only [Session.ofCommand, prints]
            refine .printed output [] fun options isCompile => ?_
            rw [isCommand] at isCompile
            cases isCompile

/-! ### The command line -/

/-- What a run with these arguments has done when it ends with `report` and the machine is in the
state `after`. -/
structure AllOrNothing (arguments : List Text) (report : Report) (after : machine.State) :
    Prop where
  exits : report.exitCode = 0 ∨ report.exitCode = 1
  nothing : report.exitCode = 1 → report.output = [] ∧ after = state
  /-- Only the file that the last output option of a compile command names may differ. -/
  onlyOutput : report.exitCode = 0 → ∀ file,
    machine.content? after file ≠ machine.content? state file →
    ∃ words path, arguments = ("compile" : Text) :: words ∧ Command.NamesOutput words path ∧
      machine.locate? state path = some file
  /-- That file has got what the same run prints without the output options. -/
  redirected : report.exitCode = 0 → ∀ words path, arguments = ("compile" : Text) :: words →
    Command.NamesOutput words path →
    ∃ file printed, machine.locate? state path = some file ∧
      machine.run state (.ofArgumentsWith reader ("compile" :: Command.withoutOutput words)) =
        (.success printed report.errors, state) ∧
      machine.content? after file = some (encodeText printed) ∧
      report.output = []

section Written

variable {machine state reader} {arguments : List Text} {options : CompileOptions}
  {path sheet : Text}
  (command : Command.ofArguments arguments = .ok (.compile options))
  (isOutput : options.output = some path)

include command isOutput

/-- A file that differs after a write is the one that the arguments name. -/
theorem exists_namesOutput_of_differs {changed : machine.State} {file : machine.File}
    (writes : machine.writeFile state path sheet = .ok changed)
    (differs : machine.content? changed file ≠ machine.content? state file) :
    ∃ words path, arguments = ("compile" : Text) :: words ∧ Command.NamesOutput words path ∧
      machine.locate? state path = some file := by
  rcases Command.exists_namesOutput_of_ofArguments command isOutput with ⟨words, isCompile, named⟩
  rcases machine.content_writeFile writes with ⟨written, located, -, others⟩
  have same : file = written := by
    by_contra different
    exact differs (others file different)
  exact ⟨words, path, isCompile, named, by rw [same, located]⟩

theorem run_withoutOutput {words : List Text} {named : Text}
    (isCompile : arguments = ("compile" : Text) :: words)
    (isNamed : Command.NamesOutput words named) :
    named = path ∧
      machine.run state (.ofArgumentsWith reader ("compile" :: Command.withoutOutput words)) =
        machine.run state (.compile reader { options with output := none }) := by
  rcases isNamed.command with ⟨sameOptions, sameCommand, sameOutput, bare⟩
  rw [← isCompile, command] at sameCommand
  cases sameCommand
  rw [isOutput] at sameOutput
  refine ⟨(Option.some.inj sameOutput).symm, ?_⟩
  rw [Session.ofArgumentsWith, bare]
  rfl

end Written

theorem run_allOrNothing (arguments : List Text) :
    machine.AllOrNothing state reader arguments
      (machine.run state (.ofArgumentsWith reader arguments)).1
      (machine.run state (.ofArgumentsWith reader arguments)).2 := by
  have ends := machine.ends_run state reader arguments
  generalize machine.run state (.ofArgumentsWith reader arguments) = result at ends
  cases ends with
  | failed failure =>
      exact {
        exits := .inr rfl
        nothing := fun _ => ⟨rfl, rfl⟩
        onlyOutput := nofun
        redirected := nofun }
  | printed output errors unnamed =>
      refine {
        exits := .inl rfl
        nothing := nofun
        onlyOutput := fun _ file differs => absurd rfl differs
        redirected := fun _ words path isCompile named => ?_ }
      rcases named.command with ⟨options, command, isOutput, -⟩
      rw [← isCompile] at command
      rw [unnamed options command] at isOutput
      cases isOutput
  | @written options path sheet errors changed command isOutput prints writes =>
      refine {
        exits := .inl rfl
        nothing := nofun
        onlyOutput := fun _ _ => exists_namesOutput_of_differs command isOutput writes
        redirected := fun _ words named isCompile isNamed => ?_ }
      rcases run_withoutOutput command isOutput isCompile isNamed with ⟨rfl, sameRun⟩
      rcases machine.content_writeFile writes with ⟨file, located, content, -⟩
      exact ⟨file, sheet, located, sameRun.trans prints, content, rfl⟩

/-- Of two output options the last one names the file that is written. -/
theorem run_allOrNothing_lastOutput :
    let host : Host := ⟨.empty, []⟩
    let arguments : List Text := ["compile", "-o", "first.css", "--out", "last.css", "flex"]
    (host.run (.ofArguments arguments)).1.output = [] ∧
      (host.run (.ofArguments arguments)).2.files.lookup ("last.css" : Text) =
        some (encodeText ".flex \x7b\n  display: flex;\n\x7d\n") := by
  intro host arguments
  have named : Command.NamesOutput ["-o", "first.css", "--out", "last.css", "flex"] "last.css" :=
    ⟨[.output "first.css", .output "last.css", .candidate "flex"],
      .output (by decide) (.output (by decide)
        (.candidate (by decide) (by decide) (by decide) .nil)), rfl⟩
  have ends := run_allOrNothing Host.machine host Settings.read arguments
  rcases ends.redirected rfl _ _ rfl named with ⟨file, printed, located, bare, content, silent⟩
  have isLast : some ("last.css" : Text) = some file := located
  have isPrinted : ".flex \x7b\n  display: flex;\n\x7d\n" = printed :=
    congrArg (·.1.output) bare
  rw [← Option.some.inj isLast, ← isPrinted] at content
  rw [← Host.run_machine]
  exact ⟨silent, content⟩

end AtomicCss.Machine
