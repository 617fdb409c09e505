import AtomicCss.CommandLine.Host

/-!
# The program

Carries out the session that the command line asks for on the machine it runs on.
-/

namespace AtomicCss

/-- The host's own account of an error, in the terms that sessions know. -/
def HostError.ofError : IO.Error → HostError
  | .noFileOrDirectory .. => .missing
  | .inappropriateType _ code _ => if code = 20 then .notDirectory else .isDirectory
  | error => .other (toString error)

partial def readInputBytes (stream : IO.FS.Stream) (read : ByteArray) : IO ByteArray := do
  let chunk ← stream.read 65536
  if chunk.isEmpty then return read else readInputBytes stream (read ++ chunk)

/-- The answer to a request, whose errors are reported to the session. -/
def attempt {Answer : Type} (action : IO Answer) : IO (Except HostError Answer) := do
  match ← action.toBaseIO with
  | .ok answer => return .ok answer
  | .error error => return .error (.ofError error)

def Session.perform : Session → IO Report
  | .finish report => return report
  | .readFile path next => do
      let bytes ← attempt (IO.FS.readBinFile (String.ofList path))
      perform (next (bytes >>= decodeText))
  | .readInput next => do
      let bytes ← attempt (do readInputBytes (← IO.getStdin) ByteArray.empty)
      perform (next (bytes >>= decodeText))
  | .writeFile path content next => do
      perform (next (← attempt (IO.FS.writeBinFile (String.ofList path) (encodeText content))))

end AtomicCss

def main (arguments : List String) : IO UInt32 := do
  let report ← (AtomicCss.Session.ofArguments (arguments.map String.toList)).perform
  (← IO.getStdout).putStr (String.ofList report.output)
  (← IO.getStderr).putStr (String.ofList report.errors)
  return report.exitCode.toUInt32
