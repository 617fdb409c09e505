import AtomicCss.Toml.Quoted
import AtomicCss.Toml.Value

/-!
# Configuration files

A file is a list of sections: assignments before the first header, and then a header with
assignments after each. `Document.read` yields the table that the sections build up.

Arrays and inline tables may be nested, but not deeper than `depthLimit`, and dotted keys have a
limit as well. All loops carry a bound: the length of the text that they read.
-/

namespace AtomicCss.Toml

/-- How deep arrays and inline tables may be nested. -/
def depthLimit : Nat := 79

/-- How many dots a key may have. -/
def dotLimit : Nat := 78

namespace Key

/-- Whether a character may stand in a key without quotes. -/
def isBare (char : Char) : Bool :=
  isNameChar char

def part (text : Text) : Option (Text × Text) :=
  match text with
  | '"' :: rest => Quoted.basic rest
  | '\'' :: rest => Quoted.literal rest
  | _ =>
      let bare := text.takeWhile isBare
      if bare.isEmpty then none else some (bare, text.dropWhile isBare)

/-- The parts of a dotted key, with spaces around them, of which there are at most `bound`. -/
def parts : Nat → Reader Key
  | 0, _ => none
  | bound + 1, text => do
      let (first, rest) ← part (skipSpaces text)
      match skipSpaces rest with
      | '.' :: rest =>
          let (key, rest) ← parts bound rest
          some (key.within first, rest)
      | rest => some (⟨[], first⟩, rest)

def read (text : Text) : Option (Key × Text) :=
  parts (dotLimit + 1) text

end Key

/-- An assignment of a value to a key. The spaces after the value are left. -/
def assignment (value : Reader Value) (text : Text) : Option ((Key × Value) × Text) := do
  let (key, rest) ← Key.read text
  let rest ← expect '=' rest
  let (found, rest) ← value (skipSpaces rest)
  some ((key, found), rest)

/-- The items of an array up to its end, behind its opening bracket or a comma. -/
def items (value : Reader Value) : Nat → Reader (List Value)
  | 0, _ => none
  | bound + 1, text =>
      match skipTrivia text with
      | ']' :: rest => some ([], rest)
      | text => do
          let (item, rest) ← value text
          match skipTrivia rest with
          | ',' :: rest =>
              let (others, rest) ← items value bound rest
              some (item :: others, rest)
          | ']' :: rest => some ([item], rest)
          | _ => none

/-- The assignments of an inline table up to its end, of which there is at least one. -/
def assignments (value : Reader Value) : Nat → Reader (List (Key × Value))
  | 0, _ => none
  | bound + 1, text => do
      let (first, rest) ← assignment value text
      match skipSpaces rest with
      | ',' :: rest =>
          let (others, rest) ← assignments value bound rest
          some (first :: others, rest)
      | '\x7d' :: rest => some ([first], rest)
      | _ => none

def inlineTable (value : Reader Value) (text : Text) : Option (Entries × Text) :=
  match skipSpaces text with
  | '\x7d' :: rest => some ([], rest)
  | text => do
      let (found, rest) ← assignments value text.length text
      let entries ← Entries.assignAll found []
      some (entries, rest)

/-- A value that holds no other value. -/
def scalar (text : Text) : Option (Value × Text) :=
  match text with
  | '"' :: _ | '\'' :: _ => (Quoted.string text).map fun (found, rest) => (.string found, rest)
  | 't' :: 'r' :: 'u' :: 'e' :: rest => some (.boolean true, rest)
  | 'f' :: 'a' :: 'l' :: 's' :: 'e' :: rest => some (.boolean false, rest)
  | _ =>
      match Moment.read text with
      | some (moment, rest) => some (.moment moment, rest)
      | none => (Number.read text).map fun (number, rest) => (.number number, rest)

/-- A value in which arrays and inline tables are nested at most `depth` deep. -/
def value : (depth : Nat) → Reader Value
  | depth, text =>
      match depth, text with
      | 0, '[' :: _ | 0, '\x7b' :: _ => none
      | depth + 1, '[' :: rest =>
          (items (value depth) (rest.length + 1) rest).map fun (found, rest) =>
            (.array found, rest)
      | depth + 1, '\x7b' :: rest =>
          (inlineTable (value depth) rest).map fun (entries, rest) => (.inline entries, rest)
      | _, text => scalar text

structure Section where
  isElement : Bool
  key : Key
  assignments : List (Key × Value)

def Section.attach (entries : Entries) (part : Section) : Option Entries :=
  if part.isElement then Entries.attachElement part.key part.assignments entries
  else Entries.attachTable part.key part.assignments entries

namespace Document

/-- A header, and whether it is one of an array of tables. -/
def header? : Reader (Bool × Key)
  | '[' :: '[' :: text => do
      let (key, rest) ← Key.read text
      let rest ← (expect ']' rest).bind (expect ']')
      some ((true, key), rest)
  | '[' :: text => do
      let (key, rest) ← Key.read text
      let rest ← expect ']' rest
      some ((false, key), rest)
  | _ => none

/-- The assignments up to the next header, and the sections from there on. -/
def sections : Nat → Text → Option (List (Key × Value) × List Section)
  | 0, _ => none
  | bound + 1, text =>
      match skipSpaces text with
      | [] => some ([], [])
      | '[' :: rest => do
          let ((isElement, key), rest) ← header? ('[' :: rest)
          let rest ← lineEnd? rest
          let (found, others) ← sections bound rest
          some ([], ⟨isElement, key, found⟩ :: others)
      | text =>
          match lineEnd? text with
          | some rest => sections bound rest
          | none => do
              let (first, rest) ← assignment (value depthLimit) text
              let rest ← lineEnd? rest
              let (found, others) ← sections bound rest
              some (first :: found, others)

/-- The text without the byte-order mark that may precede it. -/
def skipMark : Text → Text
  | '\uFEFF' :: rest => rest
  | text => text

def read (text : Text) : Option Entries := do
  let text := skipMark text
  let (found, others) ← sections (text.length + 1) text
  let entries ← Entries.assignAll found []
  others.foldlM Section.attach entries

end Document

end AtomicCss.Toml
