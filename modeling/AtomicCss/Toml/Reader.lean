import AtomicCss.Text.Basic

/-!
# Reading configuration files

A reader takes a value off the start of a text. This file fixes its type and the readers that all
parts of the format share: spaces, line ends and comments. Each of them recurses on the text.
-/

namespace AtomicCss.Toml

/-- Takes a value off the start of a text, if the text starts with one. -/
abbrev Reader (Value : Type) := Text → Option (Value × Text)

/-- Spaces and tabs; other blanks are no part of the format. -/
def isSpace (char : Char) : Bool :=
  char = ' ' || char = '\t'

/-- Characters that may stand in comments and strings: no control character but the tab. -/
def isPrintable (char : Char) : Bool :=
  char = '\t' || 0x20 ≤ char.toNat && char.toNat ≠ 0x7F

/-- The text without the spaces at its start. -/
def skipSpaces (text : Text) : Text :=
  text.dropWhile isSpace

/-- The text after a comment at its start, if there is one. -/
def skipComment : Text → Text
  | '#' :: rest => rest.dropWhile isPrintable
  | text => text

/-- The text after the end of a line, which may hold spaces and a comment but nothing else. -/
def lineEnd? (text : Text) : Option Text :=
  match skipComment (skipSpaces text) with
  | [] => some []
  | '\n' :: rest => some rest
  | '\r' :: '\n' :: rest => some rest
  | _ => none

/-- The text after the spaces, line ends and comments at its start; `inComment` tells whether a
comment has begun. -/
def skipTriviaFrom (inComment : Bool) : Text → Text
  | [] => []
  | '\n' :: rest => skipTriviaFrom false rest
  | '\r' :: '\n' :: rest => skipTriviaFrom false rest
  | char :: rest =>
      if inComment && isPrintable char then skipTriviaFrom true rest
      else if isSpace char then skipTriviaFrom false rest
      else if char = '#' then skipTriviaFrom true rest
      else char :: rest

/-- The text after the spaces, line ends and comments at its start. -/
def skipTrivia (text : Text) : Text :=
  skipTriviaFrom false text

def push (char : Char) (found : Text × Text) : Text × Text :=
  (char :: found.1, found.2)

end AtomicCss.Toml
