/-!
# Texts

Class names, selectors and style sheets are texts: lists of Unicode scalar values. A list is the
right carrier here because every rule of the language reads its input from left to right, one
character at a time, so that functions recurse on the text itself and facts about them follow by
induction on it.

This file holds the operations that belong to no rule in particular: taking something off either
end, cutting at a mark, and replacing the first occurrence of a text.
-/

namespace AtomicCss

/-- A text is a list of Unicode scalar values. -/
abbrev Text := List Char

instance : Coe String Text := ⟨String.toList⟩

/-- Characters that may stand in a CSS name without an escape, non-ASCII ones apart. -/
def isNameChar (char : Char) : Bool :=
  char.isAlphanum || char = '-' || char = '_'

/-- The character with this code point, if it is a Unicode scalar value. -/
def scalar? (value : Nat) : Option Char :=
  if value < 0xD800 || 0xDFFF < value && value < 0x110000 then some (Char.ofNat value) else none

namespace Text

/-- What follows `lead`, if the text starts with it. -/
def after? : (text lead : Text) → Option Text
  | text, [] => some text
  | [], _ :: _ => none
  | char :: text, expected :: lead => if char = expected then after? text lead else none

/-- The text without its last character, if that character is `mark`. -/
def before? (mark : Char) : Text → Option Text
  | [] => none
  | [char] => if char = mark then some [] else none
  | char :: next :: rest => (before? mark (next :: rest)).map (char :: ·)

def cutFirst? (mark : Char) : Text → Option (Text × Text)
  | [] => none
  | char :: rest =>
      if char = mark then some ([], rest)
      else (cutFirst? mark rest).map fun (left, right) => (char :: left, right)

def cutLast? (mark : Char) : Text → Option (Text × Text)
  | [] => none
  | char :: rest =>
      match cutLast? mark rest with
      | some (left, right) => some (char :: left, right)
      | none => if char = mark then some ([], rest) else none

/-- The text with the first occurrence of `needle` replaced, if it has one. -/
def replaceFirst? (text needle replacement : Text) : Option Text :=
  match after? text needle, text with
  | some rest, _ => some (replacement ++ rest)
  | none, [] => none
  | none, char :: rest => (replaceFirst? rest needle replacement).map (char :: ·)

/-- The text without the characters at its end that satisfy `drop`. -/
def dropEndWhile (drop : Char → Bool) : Text → Text
  | [] => []
  | char :: rest =>
      match dropEndWhile drop rest with
      | [] => if drop char then [] else [char]
      | next :: kept => char :: next :: kept

end Text

end AtomicCss
