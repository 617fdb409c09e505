import AtomicCss.Bracket
import AtomicCss.Fragment
import AtomicCss.Text.Blank

/-!
# What a bracket holds

The inside of a bracket is a media query when it starts with the word `@media`, a selector
fragment when it has a live `&`, and an opaque value otherwise.
-/

namespace AtomicCss.Bracket

inductive Content
  | fragment (text : Text)
  | query (text : Text)
  | value (text : Text)
  deriving DecidableEq, Repr

/-- The query after the word `@media`, which ends at the end of the text, a space or a
parenthesis. -/
def mediaQuery? (text : Text) : Option Text :=
  match text.after? "@media" with
  | some [] => some []
  | some (char :: rest) =>
      if char = ' ' || char = '(' then some (Text.trim (char :: rest)) else none
  | none => none

/-- Reads the inside of a bracket. A value keeps its blanks; the other two are trimmed. -/
def content (inside : Text) : Content :=
  let text := unescape inside
  match mediaQuery? text.trim with
  | some query => .query query
  | none =>
      if Fragment.hasSlot text.trim then .fragment (Fragment.spaceCombinators text.trim)
      else .value text

/-- The trimmed text of a bracket that holds more than blanks. -/
def filled? (text : Text) : Option Text :=
  match inner? text with
  | some inside =>
      let value := (unescape inside).trim
      if value.isEmpty then none else some value
  | none => none

end AtomicCss.Bracket
