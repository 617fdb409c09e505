import AtomicCss.Text.Basic

/-!
# Commands

The arguments of the program name a command, and for two of the commands they go on with options
and candidates in any order. An option that takes a value takes the next argument, whatever it is,
and of several values for one option the last one counts.
-/

namespace AtomicCss

inductive ArgumentError
  | unknownCommand (word : Text)
  /-- The last argument is an option that takes a value. -/
  | missingValue (command option : Text)
  /-- There is nothing to explain. -/
  | missingCandidate
  /-- Only one candidate can be explained at a time. -/
  | extraCandidate (word : Text)
  deriving DecidableEq, Repr

def ArgumentError.message : ArgumentError → Text
  | .unknownCommand word => "unknown command: " ++ word
  | .missingValue command option => command ++ " requires a value for " ++ option
  | .missingCandidate => "explain requires a candidate"
  | .extraCandidate word => "explain takes a single candidate, got extra: " ++ word

structure CompileOptions where
  candidates : List Text
  output : Option Text
  minify : Bool
  config : Option Text
  deriving DecidableEq, Repr

inductive Command
  | compile (options : CompileOptions)
  | explain (candidate : Text) (config : Option Text)
  | help
  deriving DecidableEq, Repr

namespace Command

def outputFlags : List Text := ["--out", "--output", "-o"]

def configFlags : List Text := ["--config", "-c"]

def minifyFlag : Text := "--minify"

def helpWords : List Text := ["-h", "--help", "help"]

/-- One candidate or one option, with its value if it takes one. -/
inductive Item
  | candidate (text : Text)
  | output (path : Text)
  | minify
  | config (path : Text)
  deriving DecidableEq, Repr

/-- The items that the arguments after the word `compile` are made of. -/
def compileItems : List Text → Except ArgumentError (List Item)
  | [] => .ok []
  | word :: words =>
      if outputFlags.contains word then
        match words with
        | [] => .error (.missingValue "compile" "--output")
        | path :: rest => (compileItems rest).map (.output path :: ·)
      else if configFlags.contains word then
        match words with
        | [] => .error (.missingValue "compile" "--config")
        | path :: rest => (compileItems rest).map (.config path :: ·)
      else if word = minifyFlag then (compileItems words).map (.minify :: ·)
      else (compileItems words).map (.candidate word :: ·)

namespace Item

def candidate? : Item → Option Text
  | .candidate text => some text
  | _ => none

def output? : Item → Option Text
  | .output path => some path
  | _ => none

def config? : Item → Option Text
  | .config path => some path
  | _ => none

end Item

def ofItems (items : List Item) : CompileOptions where
  candidates := items.filterMap Item.candidate?
  output := (items.filterMap Item.output?).getLast?
  minify := items.contains .minify
  config := (items.filterMap Item.config?).getLast?

/-- Reads the arguments after the word `explain`, given what earlier ones have set. -/
def explainFrom (candidate config : Option Text) : List Text → Except ArgumentError Command
  | [] =>
      match candidate with
      | some candidate => .ok (.explain candidate config)
      | none => .error .missingCandidate
  | word :: words =>
      if configFlags.contains word then
        match words with
        | [] => .error (.missingValue "explain" "--config")
        | path :: rest => explainFrom candidate (some path) rest
      else
        match candidate with
        | some _ => .error (.extraCandidate word)
        | none => explainFrom (some word) config words

/-- The command that the arguments state. Without arguments it is help. -/
def ofArguments : List Text → Except ArgumentError Command
  | [] => .ok .help
  | word :: words =>
      if word = "compile" then (compileItems words).map (.compile ∘ ofItems)
      else if word = "explain" then explainFrom none none words
      else if helpWords.contains word then .ok .help
      else .error (.unknownCommand word)

end Command

end AtomicCss
