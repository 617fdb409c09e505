import AtomicCss.Text.Basic

/-!
# Signs

A hyphen in front of a class name asks for the negative of the value that the class names. Numbers
change their sign, zero has none, and a value that starts with a word can only be negated by a
calculation.
-/

namespace AtomicCss

/-- Whether a class name asks for a value or for its negative. -/
inductive Sign
  | positive
  | negative
  deriving DecidableEq, Repr

namespace Sign

/-- Whether a value starts with a zero, written in any number of digits. -/
def isZero (value : Text) : Bool :=
  let isFiller (char : Char) : Bool := char = '0' || char = '.'
  value.head?.any isFiller && !(value.dropWhile isFiller).head?.any Char.isDigit

def negate (value : Text) : Text :=
  if isZero value then value
  else if value.head?.any Char.isAlpha then "calc(" ++ value ++ " * -1)"
  else
    match value with
    | '-' :: rest => rest
    | _ => '-' :: value

def apply : Sign → Text → Text
  | .positive, value => value
  | .negative, value => negate value

end Sign

end AtomicCss
