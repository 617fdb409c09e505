import AtomicCss.Text.Basic

/-!
# Digits

Reading and writing natural numbers in base ten and base sixteen, and writing decimal fractions
with as few digits as they need.
-/

namespace AtomicCss

def hexValue (char : Char) : Nat :=
  if char.isDigit then char.toNat - '0'.toNat
  else if char.isLower then char.toNat - 'a'.toNat + 10
  else char.toNat - 'A'.toNat + 10

namespace Text

/-- The number that a row of digits writes in a base of at most sixteen. -/
def inBase (base : Nat) (digits : Text) : Nat :=
  digits.foldl (fun value digit => base * value + hexValue digit) 0

def decimalNumber (digits : Text) : Nat :=
  inBase 10 digits

/-- The number that a text writes in base ten: one or more digits, leading zeros allowed. -/
def decimal? (text : Text) : Option Nat :=
  if text.isEmpty || !text.all Char.isDigit then none else some text.decimalNumber

def ofNat (number : Nat) : Text :=
  Nat.toDigits 10 number

/-- The text without the zeros at its end. -/
def trimZeros (digits : Text) : Text :=
  digits.dropEndWhile (· = '0')

/-- A natural number in base ten with zeros in front, to make up at least `width` digits. -/
def ofNatPadded (width number : Nat) : Text :=
  let digits := ofNat number
  List.replicate (width - digits.length) '0' ++ digits

/-- The decimal fraction `digits / 10 ^ places`, written without trailing zeros and, when it is
whole, without a point. -/
def ofScaled (digits places : Nat) : Text :=
  let whole := ofNat (digits / Nat.pow 10 places)
  match trimZeros (ofNatPadded places (digits % Nat.pow 10 places)) with
  | [] => whole
  | fraction => whole ++ '.' :: fraction

end Text

end AtomicCss
