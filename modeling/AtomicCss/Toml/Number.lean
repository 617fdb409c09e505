import AtomicCss.Text.Digits
import AtomicCss.Toml.Reader

/-!
# Numbers

Integers have 64 bits and may be written in four bases. Other numbers are read exactly, as a
coefficient and a power of ten, and must not be too large for a double. Digits may be grouped by
single underscores.
-/

namespace AtomicCss.Toml

inductive Real
  | finite (coefficient exponent : Int)
  | infinite (negative : Bool)
  | undefined
  deriving DecidableEq, Repr

inductive Number
  | integer (value : Int)
  | real (value : Real)
  deriving DecidableEq, Repr

namespace Number

/-- The digits that follow others, each alone or after an underscore. -/
def moreDigits (isDigit : Char → Bool) : Reader Text
  | [] => some ([], [])
  | '_' :: char :: rest =>
      if isDigit char then (moreDigits isDigit rest).map (push char) else none
  | char :: rest =>
      if isDigit char then (moreDigits isDigit rest).map (push char)
      else if char = '_' then none
      else some ([], char :: rest)

def digits (isDigit : Char → Bool) : Reader Text
  | [] => none
  | char :: rest => if isDigit char then (moreDigits isDigit rest).map (push char) else none

/-- The digits of a decimal integer, which has no zeros in front. -/
def whole : Reader Text
  | '0' :: rest => some (['0'], rest)
  | text => digits Char.isDigit text

def sign : Text → Bool × Text
  | '-' :: rest => (true, rest)
  | '+' :: rest => (false, rest)
  | text => (false, text)

def signed (negative : Bool) (value : Nat) : Int :=
  if negative then -value else value

/-- An integer, if it has at most 64 bits. -/
def bounded? (value : Int) : Option Number :=
  if -0x8000000000000000 ≤ value && value < 0x8000000000000000 then some (.integer value) else none

/-- An integer in a base other than ten, behind the letters that announce the base. -/
def based (base : Nat) (isDigit : Char → Bool) (text : Text) : Option (Number × Text) := do
  let (found, rest) ← digits isDigit text
  let number ← bounded? (Text.inBase base found)
  some (number, rest)

/-- Whether `coefficient * 10 ^ exponent` is so large that the nearest double is infinite. The count
of digits before the point decides it except near the bound, so that no huge power is computed. -/
def overflows (coefficient : Nat) (exponent : Int) : Bool :=
  let bound := (Nat.pow 2 54 - 1) * Nat.pow 2 970
  let size := (Nat.toDigits 10 coefficient).length + exponent
  if coefficient = 0 || size < 300 then false
  else if size > 320 then true
  else bound * Nat.pow 10 (-exponent).toNat ≤ coefficient * Nat.pow 10 exponent.toNat

def exponent? : Reader Int
  | char :: rest =>
      if char = 'e' || char = 'E' then
        let (negative, rest) := sign rest
        (digits Char.isDigit rest).map fun (found, rest) =>
          (signed negative found.decimalNumber, rest)
      else none
  | [] => none

/-- A number with the given sign, digits and exponent. Only a positive one can be too large. -/
def real? (negative : Bool) (wholeDigits fraction : Text) (exponent : Int) : Option Number :=
  let coefficient := Text.decimalNumber (wholeDigits ++ fraction)
  let scale := exponent - fraction.length
  if !negative && overflows coefficient scale then none
  else some (.real (.finite (signed negative coefficient) scale))

/-- The part of a number after the digits of its whole part. -/
def afterWhole (negative : Bool) (wholeDigits : Text) : Reader Number
  | '.' :: text => do
      let (fraction, rest) ← digits Char.isDigit text
      let (exponent, rest) := (exponent? rest).getD (0, rest)
      let number ← real? negative wholeDigits fraction exponent
      some (number, rest)
  | text =>
      match exponent? text with
      | some (exponent, rest) =>
          (real? negative wholeDigits [] exponent).map (·, rest)
      | none => (bounded? (signed negative wholeDigits.decimalNumber)).map (·, text)

/-- A decimal number or one of the words for those that have no digits. -/
def signedNumber (text : Text) : Option (Number × Text) :=
  match sign text with
  | (negative, 'i' :: 'n' :: 'f' :: rest) => some (.real (.infinite negative), rest)
  | (_, 'n' :: 'a' :: 'n' :: rest) => some (.real .undefined, rest)
  | (negative, text) => (whole text).bind fun (found, rest) => afterWhole negative found rest

def read : Reader Number
  | '0' :: 'x' :: rest => based 16 Char.isHexDigit rest
  | '0' :: 'o' :: rest => based 8 (fun char => '0' ≤ char && char ≤ '7') rest
  | '0' :: 'b' :: rest => based 2 (fun char => char = '0' || char = '1') rest
  | text => signedNumber text

end Number

end AtomicCss.Toml
