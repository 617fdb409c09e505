import AtomicCss.Text.Basic

/-!
# Quoting

Author-written text may hold strings in single or double quotes, and a backslash anywhere makes
the next character inert. The characters that are neither inert nor part of a string are *live*:
only they can separate the segments of a candidate, open a bracket, stand for the styled element
or read as rule punctuation. All readers of author-written text agree on which characters are live
because they all follow `Quoting.next`.

A text is *closed* when reading it from the start leaves no string open and no backslash pending,
so that text placed after it is read as if it stood alone.
-/

namespace AtomicCss

/-- What a reader has to remember: the quote that opened the current string, if any, and whether
the character just read was a backslash that makes the next one inert. -/
structure Quoting where
  quote : Option Char
  escaped : Bool
  deriving DecidableEq, Repr

namespace Quoting

/-- Outside every string, with no backslash pending. -/
def outside : Quoting := ⟨none, false⟩

/-- Whether `char` opens a string when it is live. -/
def isQuote (char : Char) : Bool :=
  char = '\'' || char = '"'

/-- The state after reading `char`. -/
def next (state : Quoting) (char : Char) : Quoting :=
  if state.escaped then { state with escaped := false }
  else if char = '\\' then { state with escaped := true }
  else
    match state.quote with
    | some quote => if char = quote then outside else state
    | none => if isQuote char then ⟨some char, false⟩ else state

/-- Whether `char`, read in this state, is live. Backslashes and quotes never are. -/
def isLive (state : Quoting) (char : Char) : Bool :=
  !state.escaped && state.quote.isNone && char != '\\' && !isQuote char

/-- The state after reading a whole text. -/
def readAll (state : Quoting) (text : Text) : Quoting :=
  text.foldl next state

/-- The live characters of a text, in order. -/
def live (state : Quoting) : Text → Text
  | [] => []
  | char :: rest =>
      if state.isLive char then char :: live (state.next char) rest
      else live (state.next char) rest

end Quoting

namespace Text

/-- The characters of a text that stand outside strings and are not escaped. -/
def live (text : Text) : Text :=
  Quoting.outside.live text

/-- Whether reading the text leaves no string open and no backslash pending. -/
def isClosed (text : Text) : Bool :=
  Quoting.outside.readAll text = Quoting.outside

end Text

end AtomicCss
