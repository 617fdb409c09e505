import AtomicCss.Text.Digits

/-!
# Identifiers

A class name may hold any character, and a selector names it by an identifier in which the
characters that would end the name, or read as something else, are escaped. `encode` writes that
identifier in printable ASCII and `decode` reads any spelling of it back.

An escape is a backslash followed by the character itself, or by up to six hexadecimal digits of
its code point. A hexadecimal escape swallows one blank after its digits, so `encode` puts a space
there unless the next character is itself escaped: then a backslash ends the digits.
-/

namespace AtomicCss.Identifier

/-- Where a character stands in a name, as far as digits are concerned: a name may not start with
a digit, nor with a hyphen and a digit. -/
inductive Place
  | start
  | afterHyphen
  | inside
  deriving DecidableEq, Repr

def Place.next : Place → Char → Place
  | .start, '-' => .afterHyphen
  | _, _ => .inside

inductive Spelling
  | bare
  | backslash
  | hex
  deriving DecidableEq, Repr

/-- Control characters, characters beyond ASCII and leading digits are written by code point; other
characters that no name may hold take a backslash. -/
def spelling (place : Place) (char : Char) : Spelling :=
  if char.toNat < 0x20 || 0x7F ≤ char.toNat then .hex
  else if char.isDigit && place ≠ .inside then .hex
  else if isNameChar char then .bare
  else .backslash

/-- The space that ends a hexadecimal escape, left out where an escape follows. -/
def terminator (place : Place) : Text → Text
  | [] => [' ']
  | char :: _ => if spelling place char = .bare then [' '] else []

/-- The identifier of a name whose first character stands at `place`. -/
def encodeFrom (place : Place) : Text → Text
  | [] => []
  | char :: rest =>
      let later := place.next char
      match spelling place char with
      | .bare => char :: encodeFrom later rest
      | .backslash => '\\' :: char :: encodeFrom later rest
      | .hex => '\\' :: Nat.toDigits 16 char.toNat ++ terminator later rest ++ encodeFrom later rest

def encode (name : Text) : Text :=
  encodeFrom .start name

/-- The character that stands for what no code point names. -/
def replacement : Char := '\uFFFD'

/-- The character that a code point stands for. -/
def meant (value : Nat) : Char :=
  (scalar? value).getD replacement

/-- Whether `char` ends a hexadecimal escape and belongs to it. -/
def isTerminator (char : Char) : Bool :=
  [' ', '\t', '\n', '\r', '\x0C'].contains char

/-- What the reader of an identifier has just passed: a whole character, a backslash, or a
backslash and some hexadecimal digits with the value so far. -/
inductive Reading
  | character
  | backslash
  | hex (digits value : Nat)
  deriving DecidableEq, Repr

/-- The name that the rest of an identifier spells. -/
def decodeFrom : Reading → Text → Text
  | .character, [] => []
  | .backslash, [] => [replacement]
  | .hex _ value, [] => [meant value]
  | .character, char :: rest =>
      if char = '\\' then decodeFrom .backslash rest
      else char :: decodeFrom .character rest
  | .backslash, char :: rest =>
      if char.isHexDigit then decodeFrom (.hex 1 (hexValue char)) rest
      else char :: decodeFrom .character rest
  | .hex digits value, char :: rest =>
      if digits < 6 && char.isHexDigit then
        decodeFrom (.hex (digits + 1) (16 * value + hexValue char)) rest
      else if isTerminator char then meant value :: decodeFrom .character rest
      else if char = '\\' then meant value :: decodeFrom .backslash rest
      else meant value :: char :: decodeFrom .character rest

/-- The name that an identifier spells. A backslash at the very end spells the replacement
character. -/
def decode (identifier : Text) : Text :=
  decodeFrom .character identifier

def classSelector (name : Text) : Text :=
  '.' :: encode name

end AtomicCss.Identifier
