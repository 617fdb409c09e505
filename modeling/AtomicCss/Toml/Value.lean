import AtomicCss.Dictionary
import AtomicCss.Toml.Moment
import AtomicCss.Toml.Number

/-!
# Configuration values

The values of a configuration file, and how its tables grow. A table may be written down in several
places of a file, but only as long as none of them claims to state the whole of it: where a table
comes from decides which later statements may still add to it.
-/

namespace AtomicCss.Toml

inductive Origin
  /-- It is written in braces, or has a header of its own. -/
  | stated
  /-- It lies on the way to a table that has a header. -/
  | implied
  /-- It lies on the way to a value, in a dotted key. -/
  | dotted
  deriving DecidableEq, Repr

inductive Value
  | string (text : Text)
  | number (number : Number)
  | boolean (truth : Bool)
  | moment (moment : Moment)
  | array (items : List Value)
  /-- A table in braces, to which nothing can be added. -/
  | inline (entries : List (Text × Value))
  | table (origin : Origin) (entries : List (Text × Value))
  /-- Tables of which each has a header in double brackets; the latest one can still grow. -/
  | tables (latest : List (Text × Value)) (earlier : List (List (Text × Value)))

abbrev Entries := Dictionary Value

/-- A key with dots in it: the tables to pass, and the name of an entry in the last one. -/
structure Key where
  path : List Text
  name : Text
  deriving DecidableEq, Repr

def Key.within (first : Text) (key : Key) : Key :=
  { key with path := first :: key.path }

namespace Entries

/-- What a name stands for. -/
def get? (entries : Entries) (name : Text) : Option Value :=
  entries.lookup name

/-- Changes what a name stands for; `none` stands for an absent entry. -/
def alter (name : Text) (change : Option Value → Option Value) : Entries → Option Entries
  | [] => (change none).map fun value => [(name, value)]
  | (key, value) :: rest =>
      if key = name then (change (some value)).map fun changed => (key, changed) :: rest
      else (alter name change rest).map ((key, value) :: ·)

/-- Adds an entry, unless there is one with this name. -/
def insert (name : Text) (value : Value) : Entries → Option Entries :=
  alter name fun
    | none => some value
    | some _ => none

/-- Whether a path of this origin may pass a table. Dotted keys stay within the tables that dotted
keys or longer headers have brought about. -/
def mayPass (way origin : Origin) : Bool :=
  way = .implied || origin ≠ .stated

/-- Changes the table that a path leads to. Tables that are missing on the way get the origin
`way`. In an array of tables the path goes on in the latest one. -/
def follow (way : Origin) (change : Origin → Entries → Option Entries) :
    List Text → Origin → Entries → Option Entries
  | [], origin, entries => change origin entries
  | name :: path, _, entries =>
      alter name
        (fun
          | none => (follow way change path way []).map (.table way)
          | some (.table origin inner) =>
              if mayPass way origin then
                (follow way change path origin inner).map (.table origin)
              else none
          | some (.tables latest earlier) =>
              (follow way change path .stated latest).map (.tables · earlier)
          | some _ => none)
        entries

/-- Adds the entry that a dotted key names. A key without dots adds to the table at hand, one with
dots only to tables that dotted keys have brought about. -/
def assign (entries : Entries) (assignment : Key × Value) : Option Entries :=
  let (key, value) := assignment
  follow .dotted
    (fun origin inner =>
      if origin = .dotted && key.path.isEmpty || origin ≠ .dotted && !key.path.isEmpty then none
      else insert key.name value inner)
    key.path .stated entries

def assignAll (assignments : List (Key × Value)) (entries : Entries) : Option Entries :=
  assignments.foldlM assign entries

/-- Adds a table with a header, which may state what was only implied so far. -/
def attachTable (key : Key) (assignments : List (Key × Value)) (entries : Entries) :
    Option Entries :=
  follow .implied
    (fun _ => alter key.name fun
      | none => (assignAll assignments []).map (.table .stated)
      | some (.table .implied inner) => (assignAll assignments inner).map (.table .stated)
      | some _ => none)
    key.path .stated entries

def attachElement (key : Key) (assignments : List (Key × Value)) (entries : Entries) :
    Option Entries :=
  follow .implied
    (fun _ => alter key.name fun
      | none => (assignAll assignments []).map (.tables · [])
      | some (.tables latest earlier) =>
          (assignAll assignments []).map (.tables · (latest :: earlier))
      | some _ => none)
    key.path .stated entries

end Entries

end AtomicCss.Toml
