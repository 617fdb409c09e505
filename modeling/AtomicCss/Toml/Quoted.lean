import AtomicCss.Text.Digits
import AtomicCss.Toml.Reader

/-!
# Quoted strings

Strings come in two kinds and two lengths. Basic strings stand in double quotes and know escapes;
literal strings stand in single quotes and know none. Short strings end at the first quote and hold
no line end. Long strings stand in three quotes on either side, may hold line ends and up to two
quotes in a row, and drop a line end right after their opening quotes.

The readers here start behind the opening quotes.
-/

namespace AtomicCss.Toml.Quoted

/-- What the reader of a basic string has just passed: a whole character, a backslash, part of a
code point with `digits` left to read, or the backslash at the end of a line, which drops all blanks
up to the next character (`seenLine` tells whether the line end has come). -/
inductive Progress
  | character
  | backslash
  | code (digits value : Nat)
  | joining (seenLine : Bool)
  deriving DecidableEq, Repr

/-- The character that an escape of one letter stands for. -/
def escaped? (char : Char) : Option Char :=
  [('b', '\x08'), ('t', '\t'), ('n', '\n'), ('f', '\x0C'), ('r', '\r'), ('"', '"'),
    ('\\', '\\')].lookup char

/-- Whether a code point with `digits` digits left is complete after the next one, and then the
character it names. -/
inductive CodeStep
  | more (digits value : Nat)
  | done (char : Char)
  | invalid
  deriving DecidableEq, Repr

def codeStep (digits value : Nat) (char : Char) : CodeStep :=
  if !char.isHexDigit then .invalid
  else
    let value := 16 * value + hexValue char
    if digits > 1 then .more (digits - 1) value
    else
      match scalar? value with
      | some char => .done char
      | none => .invalid

def basicFrom : Progress → Reader Text
  | _, [] => none
  | .character, char :: rest =>
      if char = '"' then some ([], rest)
      else if char = '\\' then basicFrom .backslash rest
      else if isPrintable char then (basicFrom .character rest).map (push char)
      else none
  | .backslash, char :: rest =>
      if char = 'u' then basicFrom (.code 4 0) rest
      else if char = 'U' then basicFrom (.code 8 0) rest
      else
        match escaped? char with
        | some meant => (basicFrom .character rest).map (push meant)
        | none => none
  | .code digits value, char :: rest =>
      match codeStep digits value char with
      | .more digits value => basicFrom (.code digits value) rest
      | .done meant => (basicFrom .character rest).map (push meant)
      | .invalid => none
  | .joining _, _ => none

def basic : Reader Text :=
  basicFrom .character

def literal : Reader Text
  | [] => none
  | char :: rest =>
      if char = '\'' then some ([], rest)
      else if isPrintable char then (literal rest).map (push char)
      else none

def pushQuotes (quote : Char) (count : Nat) (found : Text × Text) : Text × Text :=
  (List.replicate count quote ++ found.1, found.2)

/-- What a long string that has ended after `quotes` quotes holds of them: all but the last
three. -/
def closed (quote : Char) (quotes : Nat) (rest : Text) : Option (Text × Text) :=
  if quotes < 3 then none else some (List.replicate (quotes - 3) quote, rest)

/-- The rest of a long literal string, of which the last `quotes` characters were quotes. -/
def longLiteralFrom (quotes : Nat) : Reader Text
  | [] => closed '\'' quotes []
  | '\r' :: '\n' :: rest =>
      if quotes < 3 then
        (longLiteralFrom 0 rest).map (pushQuotes '\'' quotes ∘ push '\n')
      else closed '\'' quotes ('\r' :: '\n' :: rest)
  | char :: rest =>
      if char = '\'' && quotes < 5 then longLiteralFrom (quotes + 1) rest
      else if quotes ≥ 3 then closed '\'' quotes (char :: rest)
      else if isPrintable char || char = '\n' then
        (longLiteralFrom 0 rest).map (pushQuotes '\'' quotes ∘ push char)
      else none

/-- The rest of a long basic string, of which the last `quotes` characters were quotes. -/
def longBasicFrom (quotes : Nat) : Progress → Reader Text
  | .character, [] => closed '"' quotes []
  | _, [] => none
  | .character, '\r' :: '\n' :: rest =>
      if quotes < 3 then
        (longBasicFrom 0 .character rest).map (pushQuotes '"' quotes ∘ push '\n')
      else closed '"' quotes ('\r' :: '\n' :: rest)
  | .character, char :: rest =>
      if char = '"' && quotes < 5 then longBasicFrom (quotes + 1) .character rest
      else if quotes ≥ 3 then closed '"' quotes (char :: rest)
      else if char = '\\' then
        (longBasicFrom 0 .backslash rest).map (pushQuotes '"' quotes)
      else if isPrintable char || char = '\n' then
        (longBasicFrom 0 .character rest).map (pushQuotes '"' quotes ∘ push char)
      else none
  | .backslash, '\r' :: '\n' :: rest => longBasicFrom 0 (.joining true) rest
  | .backslash, char :: rest =>
      if char = '\n' then longBasicFrom 0 (.joining true) rest
      else if isSpace char then longBasicFrom 0 (.joining false) rest
      else if char = 'u' then longBasicFrom 0 (.code 4 0) rest
      else if char = 'U' then longBasicFrom 0 (.code 8 0) rest
      else
        match escaped? char with
        | some meant => (longBasicFrom 0 .character rest).map (push meant)
        | none => none
  | .code digits value, char :: rest =>
      match codeStep digits value char with
      | .more digits value => longBasicFrom 0 (.code digits value) rest
      | .done meant => (longBasicFrom 0 .character rest).map (push meant)
      | .invalid => none
  | .joining _, '\r' :: '\n' :: rest => longBasicFrom 0 (.joining true) rest
  | .joining seenLine, char :: rest =>
      if char = '\n' then longBasicFrom 0 (.joining true) rest
      else if isSpace char then longBasicFrom 0 (.joining seenLine) rest
      else if !seenLine then none
      else if char = '"' then longBasicFrom 1 .character rest
      else if char = '\\' then longBasicFrom 0 .backslash rest
      else if isPrintable char then (longBasicFrom 0 .character rest).map (push char)
      else none

/-- The text without the line end at its start. -/
def skipLineEnd : Text → Text
  | '\n' :: rest => rest
  | '\r' :: '\n' :: rest => rest
  | text => text

def longBasic (text : Text) : Option (Text × Text) :=
  longBasicFrom 0 .character (skipLineEnd text)

def longLiteral (text : Text) : Option (Text × Text) :=
  longLiteralFrom 0 (skipLineEnd text)

def string : Reader Text
  | '"' :: '"' :: '"' :: rest => longBasic rest
  | '\'' :: '\'' :: '\'' :: rest => longLiteral rest
  | '"' :: rest => basic rest
  | '\'' :: rest => literal rest
  | _ => none

end AtomicCss.Toml.Quoted
