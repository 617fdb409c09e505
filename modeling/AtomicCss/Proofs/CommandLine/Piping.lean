import AtomicCss.Proofs.CommandLine.Arguments
import AtomicCss.Proofs.CommandLine.Machine
import AtomicCss.Proofs.Text.Words

/-!
# Candidates on standard input

A compiling session whose arguments have no candidates takes them from standard input. Once that
request has been answered with a text, the session that is left is the one that was given the words
of the text as arguments: it asks for the same files, writes the same files and ends with the same
report. So on any machine it makes no difference whether candidates are given as arguments or piped
in, however the blanks between them are chosen.
-/

namespace AtomicCss

theorem decodeText_encodeText (text : Text) : decodeText (encodeText text) = .ok text := by
  have decodes : String.fromUTF8? (encodeText text) = some (String.ofList text) :=
    dif_pos (String.ofList text).isValidUTF8
  simp only [decodeText, decodes, String.toList_ofList]

/-! ### Sessions -/

namespace Session

/-- The session with every request for standard input answered by `input`. -/
def answered (input : Except HostError Text) : Session → Session
  | .finish report => .finish report
  | .readFile path next => .readFile path fun answer => (next answer).answered input
  | .readInput next => (next input).answered input
  | .writeFile path content next =>
      .writeFile path content fun answer => (next answer).answered input

variable (input : Except HostError Text)

theorem answered_orFail {Answer : Type} (failure : HostError → Failure)
    (next : Answer → Session) (answer : Except HostError Answer) :
    (orFail failure next answer).answered input =
      orFail failure (fun value => (next value).answered input) answer := by
  cases answer with
  | ok value => rfl
  | error error => rfl

theorem answered_withSettings (reader : Settings.Reader) (config : Option Text)
    (next : Settings → Session) :
    (withSettings reader config next).answered input =
      withSettings reader config fun settings => (next settings).answered input := by
  cases config with
  | none => rfl
  | some path =>
      apply congrArg (Session.readFile path)
      funext answer
      apply (answered_orFail input _ _ answer).trans
      congr 1
      funext text
      cases reader text with
      | error reason => rfl
      | ok settings => rfl

theorem answered_publish (options : CompileOptions) (outcomes : List Outcome) :
    (publish options outcomes).answered input = publish options outcomes := by
  unfold publish
  cases options.output with
  | none => rfl
  | some path =>
      apply congrArg (Session.writeFile path _)
      funext answer
      exact answered_orFail input _ _ answer

theorem answered_withCandidates_nil {text : Text} (someWord : text.words ≠ [])
    (next : List Text → Session) :
    (withCandidates [] next).answered (.ok text) =
      withCandidates text.words fun candidates => (next candidates).answered (.ok text) := by
  have notEmpty : text.words.isEmpty = false := by simpa using someWord
  simp only [withCandidates, List.isEmpty_nil, notEmpty, if_true, answered, orFail]
  rfl

/-- Without candidates of its own, a compiling session goes on as one that was given the words that
it reads: what comes later does not look at the candidates among its options. -/
theorem answered_compile (reader : Settings.Reader) {options : CompileOptions} {text : Text}
    (areRead : text.words = options.candidates) (someCandidate : options.candidates ≠ []) :
    (compile reader { options with candidates := [] }).answered (.ok text) =
      compile reader options := by
  have someWord : text.words ≠ [] := by rwa [areRead]
  apply (answered_withSettings (.ok text) reader options.config _).trans
  apply congrArg (withSettings reader options.config)
  funext settings
  apply (answered_withCandidates_nil someWord _).trans
  simp only [answered_publish, areRead]
  rfl

end Session

/-! ### Machines -/

namespace Machine

/-- The machine with `bytes` on its standard input. -/
def fed (machine : Machine) (bytes : ByteArray) : Machine :=
  { machine with readInput := fun _ => decodeText bytes }

theorem run_fed (machine : Machine) (bytes : ByteArray) (state : machine.State)
    (session : Session) :
    (machine.fed bytes).run state session =
      machine.run state (session.answered (decodeText bytes)) := by
  induction session generalizing state with
  | finish report => rfl
  | readFile path next ih => exact ih (machine.readFile state path) state
  | readInput next ih => exact ih (decodeText bytes) state
  | writeFile path content next ih =>
      let later (answer : Except HostError Unit) := (next answer).answered (decodeText bytes)
      cases written : machine.writeFile state path content with
      | ok changed =>
          apply ((machine.fed bytes).run_writeFile_ok state written next).trans
          apply (ih (.ok ()) changed).trans
          exact (machine.run_writeFile_ok state written later).symm
      | error error =>
          apply ((machine.fed bytes).run_writeFile_error state written next).trans
          apply (ih (.error error) state).trans
          exact (machine.run_writeFile_error state written later).symm

end Machine

namespace Host

/-- A host is fed with what stands on its standard input, and no request changes that. -/
theorem run_fed {host : Host} {bytes : ByteArray} (isInput : host.input = bytes)
    (session : Session) : (machine.fed bytes).run host session = host.run session := by
  induction session generalizing host with
  | finish report => rfl
  | readFile path next ih => exact ih (host.readFile path) isInput
  | readInput next ih =>
      subst isInput
      exact ih (decodeText host.input) rfl
  | writeFile path content next ih =>
      cases written : host.writeFile path content with
      | ok changed =>
          rw [run, written]
          apply ((machine.fed bytes).run_writeFile_ok host written next).trans
          exact ih (.ok ()) ((input_writeFile written).trans isInput)
      | error error =>
          rw [run, written]
          apply ((machine.fed bytes).run_writeFile_error host written next).trans
          exact ih (.error error) isInput

end Host

namespace Machine

/-! ### The command line -/

/-- The arguments `words` have the candidates `tokens` among their options, and `options` spells the
options alone. With the tokens on standard input, these do what those do on the same machine with
anything there, whatever configuration files are written in. -/
theorem run_piped (machine : Machine) (state : machine.State) (reader : Settings.Reader)
    {items : List Command.Item} {tokens words options : List Text} {text : Text}
    (given : Command.Spells items words)
    (piped : Command.Spells (items.filter (!·.isCandidate)) options)
    (areCandidates : items.filterMap Command.Item.candidate? = tokens) (someToken : tokens ≠ [])
    (areWords : ∀ token ∈ tokens, Text.IsWord token) (spaced : Text.SpacesOut tokens text) :
    (machine.fed (encodeText text)).run state (.ofArgumentsWith reader ("compile" :: options)) =
      machine.run state (.ofArgumentsWith reader ("compile" :: words)) := by
  have areRead : text.words = (Command.ofItems items).candidates :=
    (spaced.words_eq areWords).trans areCandidates.symm
  have someCandidate : (Command.ofItems items).candidates ≠ [] := by
    intro isNil
    exact someToken (areCandidates.symm.trans isNil)
  have sameSession :
      (Session.ofArgumentsWith reader ("compile" :: options)).answered (.ok text) =
        Session.ofArgumentsWith reader ("compile" :: words) := by
    simp only [Session.ofArgumentsWith, Command.ofArguments_of_spells given,
      Command.ofArguments_of_spells piped, Command.ofItems_filter_isCandidate]
    exact Session.answered_compile reader areRead someCandidate
  rw [run_fed, decodeText_encodeText, sameSession]

/-- Two words, with a tab in front of them, an em space and a line feed between them, and a next
line character at the end. -/
theorem run_piped_blanks :
    let host : Host := ⟨encodeText "\tflex\u2003\nhidden\u0085", []⟩
    (host.run (.ofArguments ["compile", "--minify"])).1 =
      .success ".flex\x7bdisplay:flex\x7d.hidden\x7bdisplay:none\x7d\n"
        "compiled 2 rules from 2 candidates, skipped 0\n" := by
  intro host
  have given : Command.Spells [.candidate "flex", .minify, .candidate "hidden"]
      ["flex", "--minify", "hidden"] :=
    .candidate (by decide) (by decide) (by decide) <| .minify <|
      .candidate (by decide) (by decide) (by decide) .nil
  have piped : Command.Spells [.minify] ["--minify"] := .minify .nil
  have areWords : ∀ token ∈ (["flex", "hidden"] : List Text), Text.IsWord token := by
    simp [Text.IsWord, isBlank, blankRanges]
  have spacedEnd : Text.SpacesOut [] "\u0085" := .nil (by simp [isBlank, blankRanges])
  have spacedHidden : Text.SpacesOut ["hidden"] ("\u2003\n" ++ "hidden" ++ "\u0085") :=
    .cons (by simp [isBlank, blankRanges]) (by simp [isBlank, blankRanges]) spacedEnd
  have spaced : Text.SpacesOut ["flex", "hidden"] ("\t" ++ "flex" ++ "\u2003\nhidden\u0085") :=
    .cons (by simp [isBlank, blankRanges]) (by simp [isBlank, blankRanges]) spacedHidden
  have sameRun :=
    run_piped Host.machine host Settings.read given piped rfl (by decide) areWords spaced
  have isInput : host.input = encodeText ("\t" ++ "flex" ++ "\u2003\nhidden\u0085") := rfl
  rw [Host.run_fed isInput] at sameRun
  rw [Session.ofArguments, sameRun]
  rfl

end Machine

end AtomicCss
