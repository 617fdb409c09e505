import AtomicCss.CommandLine.Host
import AtomicCss.Proofs.Dictionary

/-!
# Machines

A session can be carried out on anything that answers its questions. A `Machine` is such a thing,
with whatever directories, permissions and errors it has: all that is known of it is that reading
changes nothing, that a failing write changes nothing either, and that a write that succeeds gives
one file its content and leaves all others alone.

A host is a machine, and carrying out a session on it is carrying it out on that machine.
-/

namespace AtomicCss

structure Machine where
  State : Type
  /-- The files that there are and those that there could be. -/
  File : Type
  content? : State → File → Option ByteArray
  /-- The file that a path leads to. -/
  locate? : State → Text → Option File
  readInput : State → Except HostError Text
  readFile : State → Text → Except HostError Text
  writeFile : State → Text → Text → Except HostError State
  content_writeFile {state changed : State} {path text : Text}
    (written : writeFile state path text = .ok changed) :
    ∃ file, locate? state path = some file ∧
      content? changed file = some (encodeText text) ∧
      ∀ other, other ≠ file → content? changed other = content? state other

namespace Machine

def run (machine : Machine) (state : machine.State) : Session → Report × machine.State
  | .finish report => (report, state)
  | .readFile path next => machine.run state (next (machine.readFile state path))
  | .readInput next => machine.run state (next (machine.readInput state))
  | .writeFile path content next =>
      match machine.writeFile state path content with
      | .ok changed => machine.run changed (next (.ok ()))
      | .error error => machine.run state (next (.error error))

variable (machine : Machine) (state : machine.State)

theorem run_writeFile_ok {path content : Text} {changed : machine.State}
    (written : machine.writeFile state path content = .ok changed)
    (next : Except HostError Unit → Session) :
    machine.run state (.writeFile path content next) = machine.run changed (next (.ok ())) := by
  simp only [run, written]

theorem run_writeFile_error {path content : Text} {error : HostError}
    (fails : machine.writeFile state path content = .error error)
    (next : Except HostError Unit → Session) :
    machine.run state (.writeFile path content next) =
      machine.run state (next (.error error)) := by
  simp only [run, fails]

end Machine

/-! ### Hosts -/

def Location.file? : Location → Option Text
  | .file name => some name
  | _ => none

namespace Host

theorem writeFile_eq_ok {host changed : Host} {path content : Text}
    (written : host.writeFile path content = .ok changed) :
    ∃ name, Location.ofPath path = .file name ∧
      changed =
        { host with files := Dictionary.overlay host.files [(name, encodeText content)] } := by
  simp only [writeFile] at written
  cases location : Location.ofPath path with
  | file name =>
      simp only [location, Except.ok.injEq] at written
      exact ⟨name, rfl, written.symm⟩
  | missing | directory | slashed name | beyond name => simp [location] at written

theorem lookup_writeFile {host changed : Host} {path content : Text}
    (written : host.writeFile path content = .ok changed) :
    ∃ name, (Location.ofPath path).file? = some name ∧
      changed.files.lookup name = some (encodeText content) ∧
      ∀ other, other ≠ name → changed.files.lookup other = host.files.lookup other := by
  rcases writeFile_eq_ok written with ⟨name, location, rfl⟩
  refine ⟨name, by rw [location]; rfl, ?_, fun other different => ?_⟩
  · rw [Dictionary.lookup_overlay]
    simp
  · have notSame : (other == name) = false := by simpa using different
    have notWritten : List.lookup other [(name, encodeText content)] = none := by
      simp [List.lookup_cons, notSame]
    rw [Dictionary.lookup_overlay, notWritten, Option.none_or]

theorem input_writeFile {host changed : Host} {path content : Text}
    (written : host.writeFile path content = .ok changed) : changed.input = host.input := by
  rcases writeFile_eq_ok written with ⟨name, -, rfl⟩
  rfl

def machine : Machine where
  State := Host
  File := Text
  content? host name := host.files.lookup name
  locate? _ path := (Location.ofPath path).file?
  readInput host := decodeText host.input
  readFile := readFile
  writeFile := writeFile
  content_writeFile := lookup_writeFile

theorem run_machine (host : Host) (session : Session) :
    machine.run host session = host.run session := by
  induction session generalizing host with
  | finish report => rfl
  | readFile path next ih => exact ih (host.readFile path) host
  | readInput next ih => exact ih (decodeText host.input) host
  | writeFile path content next ih =>
      cases written : host.writeFile path content with
      | ok changed =>
          rw [run, written]
          exact (machine.run_writeFile_ok host written next).trans (ih (.ok ()) changed)
      | error error =>
          rw [run, written]
          exact (machine.run_writeFile_error host written next).trans (ih (.error error) host)

end Host

end AtomicCss
