import AtomicCss.CommandLine.Session

/-!
# Hosts as values

A host that is a value: the bytes on standard input, and one directory with the files in it.
Carrying out a session on it yields the report and the host afterwards, so that what a run does to
files can be stated and computed. The directory holds no other directories.
-/

namespace AtomicCss

/-- A directory with files in it, and what stands on standard input. -/
structure Host where
  input : ByteArray
  files : Dictionary ByteArray

/-- What a path leads to, in a directory without subdirectories. -/
inductive Location
  /-- Nothing, or something outside of the directory. -/
  | missing
  | directory
  | file (name : Text)
  /-- The name of a file with slashes after it, as only a directory may be named. -/
  | slashed (name : Text)
  /-- A path that goes on behind the name of a file. -/
  | beyond (name : Text)
  deriving DecidableEq, Repr

namespace Location

/-- What the parts of a path lead to from the directory. Parts that are empty or a single dot lead
nowhere else, and two dots lead out. -/
def ofParts : List Text → Location
  | [] => .directory
  | part :: rest =>
      if part.isEmpty || part = ['.'] then ofParts rest
      else if part = ['.', '.'] then .missing
      else if rest.isEmpty then .file part
      else if rest.all (·.isEmpty) then .slashed part
      else .beyond part

/-- Whether a path can only lead to a directory, wherever it starts. -/
def isDirectoryPath (parts : List Text) : Bool :=
  parts.all fun part => part.isEmpty || part = ['.'] || part = ['.', '.']

def ofPath (path : Text) : Location :=
  let parts := path.splitOnP (· = '/')
  if path.isEmpty then .missing
  else if isDirectoryPath parts then .directory
  else if path.head? = some '/' then .missing
  else ofParts parts

end Location

def decodeText (bytes : ByteArray) : Except HostError Text :=
  match String.fromUTF8? bytes with
  | some text => .ok text
  | none => .error .invalidText

def encodeText (text : Text) : ByteArray :=
  (String.ofList text).toUTF8

namespace Host

/-- Why a path that uses a file as a directory leads nowhere. -/
def misuse (host : Host) (name : Text) : HostError :=
  if (host.files.lookup name).isSome then .notDirectory else .missing

def readFile (host : Host) (path : Text) : Except HostError Text :=
  match Location.ofPath path with
  | .missing => .error .missing
  | .directory => .error .isDirectory
  | .slashed name | .beyond name => .error (host.misuse name)
  | .file name =>
      match host.files.lookup name with
      | some bytes => decodeText bytes
      | none => .error .missing

/-- The host after a text has been written to the file that a path leads to. -/
def writeFile (host : Host) (path content : Text) : Except HostError Host :=
  match Location.ofPath path with
  | .missing => .error .missing
  | .directory | .slashed _ => .error .isDirectory
  | .beyond name => .error (host.misuse name)
  | .file name =>
      .ok { host with files := Dictionary.overlay host.files [(name, encodeText content)] }

/-- Carries out a session. A file that cannot be written stays as it was. -/
def run (host : Host) : Session → Report × Host
  | .finish report => (report, host)
  | .readFile path next => run host (next (host.readFile path))
  | .readInput next => run host (next (decodeText host.input))
  | .writeFile path content next =>
      match host.writeFile path content with
      | .ok changed => run changed (next (.ok ()))
      | .error error => run host (next (.error error))

end Host

end AtomicCss
