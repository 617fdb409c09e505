import AtomicCss.Text.Blank

/-!
# String literals

Values that a style sheet must hold as strings are written in double quotes, whichever quotes the
author used.
-/

namespace AtomicCss.Literal

def between? (quote : Char) : Text → Option Text
  | first :: rest => if first = quote then Text.before? quote rest else none
  | [] => none

/-- The value without blanks around it and without the pair of quotes that it may have. -/
def inside (value : Text) : Text :=
  ((between? '"' value.trim).or (between? '\'' value.trim)).getD value.trim

/-- A character inside double quotes: a double quote takes a backslash. -/
def guarded (char : Char) : Text :=
  if char = '"' then ['\\', '"'] else [char]

def ofValue (value : Text) : Text :=
  '"' :: (inside value).flatMap guarded ++ ['"']

end AtomicCss.Literal
