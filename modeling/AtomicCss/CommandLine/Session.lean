import AtomicCss.CommandLine.Command
import AtomicCss.CommandLine.Explanation
import AtomicCss.Theme.Decode

/-!
# Sessions

A run of the program is a session with its host: it may ask for a file, for standard input, or for
a file to be written, and it ends with a report. A session only says what to ask and how to go on,
so that it can be carried out on a real machine as well as on a directory that is a value.

A compiling session asks for its configuration first and for candidates only if its arguments have
none. Everything that can fail does so before anything is printed, and nothing is asked for after a
file has been written. How the text of a configuration file is read is left open: a session can be
made with any reader.
-/

namespace AtomicCss

inductive HostError
  | missing
  | isDirectory
  | notDirectory
  | invalidText
  | other (message : Text)
  deriving DecidableEq, Repr

def HostError.message : HostError → Text
  | .missing => "No such file or directory (os error 2)"
  | .isDirectory => "Is a directory (os error 21)"
  | .notDirectory => "Not a directory (os error 20)"
  | .invalidText => "stream did not contain valid UTF-8"
  | .other message => message

/-- Why a session ends without doing what it was asked to do. -/
inductive Failure
  | arguments (error : ArgumentError)
  | unreadableConfig (path : Text) (error : HostError)
  /-- A configuration file whose text is refused, with the reason if the reader gives one. -/
  | invalidConfig (path : Text) (reason : Option Text)
  | unreadableInput (error : HostError)
  | unwritableOutput (path : Text) (error : HostError)
  deriving DecidableEq, Repr

def Failure.message : Failure → Text
  | .arguments error => error.message
  | .unreadableConfig path error => "failed to read config " ++ path ++ ": " ++ error.message
  | .invalidConfig path none => "failed to parse config " ++ path
  | .invalidConfig path (some reason) => "failed to parse config " ++ path ++ ": " ++ reason
  | .unreadableInput error => "failed to read candidates from stdin: " ++ error.message
  | .unwritableOutput path error => "failed to write output " ++ path ++ ": " ++ error.message

/-- How a session ends: with an exit code, and with what it has put on its two output streams. -/
structure Report where
  exitCode : Nat
  output : Text
  errors : Text
  deriving DecidableEq, Repr

namespace Report

def success (output errors : Text) : Report := ⟨0, output, errors⟩

def failure (failure : Failure) : Report := ⟨1, [], "error: " ++ failure.message ++ "\n"⟩

end Report

/-- A run of the program, as far as its host can see it. -/
inductive Session
  | finish (report : Report)
  | readFile (path : Text) (next : Except HostError Text → Session)
  | readInput (next : Except HostError Text → Session)
  | writeFile (path content : Text) (next : Except HostError Unit → Session)

namespace Session

def fail (failure : Failure) : Session :=
  .finish (.failure failure)

/-- Goes on with what the host answered, unless it could not do what it was asked for. -/
def orFail {Answer : Type} (failure : HostError → Failure) (next : Answer → Session) :
    Except HostError Answer → Session
  | .ok answer => next answer
  | .error error => fail (failure error)

/-- Goes on with the settings in a file, or with the standard ones if no file is named. -/
def withSettings (reader : Settings.Reader) (config : Option Text) (next : Settings → Session) :
    Session :=
  match config with
  | none => next Settings.standard
  | some path =>
      .readFile path <| orFail (.unreadableConfig path) fun text =>
        match reader text with
        | .ok settings => next settings
        | .error reason => fail (.invalidConfig path reason)

/-- Goes on with the given candidates, or with those on standard input if there are none. -/
def withCandidates (given : List Text) (next : List Text → Session) : Session :=
  if given.isEmpty then .readInput <| orFail .unreadableInput fun text => next text.words
  else next given

def summary (outcomes : List Outcome) : Text :=
  let compiled := (outcomes.filterMap Outcome.rule?).length
  "compiled " ++ Text.ofNat compiled ++ " rules from " ++ Text.ofNat outcomes.length ++
    " candidates, skipped " ++ Text.ofNat (outcomes.length - compiled) ++ "\n"

/-- Prints the style sheet of a batch, or writes it to a file. -/
def publish (options : CompileOptions) (outcomes : List Outcome) : Session :=
  let layout := if options.minify then .minified else .pretty
  let sheet := Outcome.printAll layout outcomes ++ "\n"
  match options.output with
  | none => .finish (.success sheet (summary outcomes))
  | some path =>
      .writeFile path sheet <| orFail (.unwritableOutput path) fun _ =>
        .finish (.success [] (summary outcomes))

def compile (reader : Settings.Reader) (options : CompileOptions) : Session :=
  withSettings reader options.config fun settings =>
    withCandidates options.candidates fun candidates =>
      publish options ((Compiler.ofSettings settings).compileAll candidates)

def explain (reader : Settings.Reader) (candidate : Text) (config : Option Text) : Session :=
  withSettings reader config fun settings =>
    let lines := (Compiler.ofSettings settings).explain candidate
    .finish (.success (lines.flatMap (· ++ ['\n'])) [])

def helpText : Text :=
  "tailstack\n" ++
  "\n" ++
  "USAGE:\n" ++
  "  tailstack compile [--output <path>] [--minify] [--config <path>] [<candidate>...]\n" ++
  "  tailstack explain [--config <path>] <candidate>\n" ++
  "\n" ++
  "Without candidates, compile reads whitespace-separated candidates from stdin.\n" ++
  "\n" ++
  "EXAMPLES:\n" ++
  "  tailstack compile \"md:hover:bg-blue-500\" \"[&_p]:text-sm\"\n" ++
  "  tailstack compile --minify -c tailstack.toml \"min-[640px]:max-[1024px]:flex\"\n" ++
  "  echo \"flex hidden\" | tailstack compile -o dist/utilities.css\n" ++
  "  tailstack explain \"aria-[checked]:data-[state=active]:bg-blue-500\"\n"

def ofCommand (reader : Settings.Reader) : Command → Session
  | .compile options => compile reader options
  | .explain candidate config => explain reader candidate config
  | .help => .finish (.success helpText [])

/-- The session that arguments ask for, with a reader for configuration files. -/
def ofArgumentsWith (reader : Settings.Reader) (arguments : List Text) : Session :=
  match Command.ofArguments arguments with
  | .ok command => ofCommand reader command
  | .error error => fail (.arguments error)

/-- The session that arguments ask for where configuration files are written in TOML. -/
def ofArguments (arguments : List Text) : Session :=
  ofArgumentsWith Settings.read arguments

end Session

end AtomicCss
