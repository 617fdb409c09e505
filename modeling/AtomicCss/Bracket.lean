import AtomicCss.Text.Basic

/-!
# Bracketed text

Class names hold no spaces, so text in square brackets writes a space as an underscore. A backslash
keeps an underscore as it is, and brackets may be escaped as well, so that every text can be
written. Backslashes before any other character belong to the text.
-/

namespace AtomicCss.Bracket

/-- What stands between a `[` at the start and a `]` at the end. -/
def inner? : Text → Option Text
  | '[' :: rest => Text.before? ']' rest
  | _ => none

/-- Characters before which a pair of backslashes stands for one. -/
def isEscapable (char : Char) : Bool :=
  char = '_' || char = '[' || char = ']'

/-- The text that the rest of a bracket's inside stands for, after `pending` backslashes. -/
def unescapeFrom (pending : Nat) : Text → Text
  | [] => List.replicate pending '\\'
  | char :: rest =>
      if char = '\\' then unescapeFrom (pending + 1) rest
      else if isEscapable char then
        let meant := if char = '_' && pending % 2 = 0 then ' ' else char
        List.replicate (pending / 2) '\\' ++ meant :: unescapeFrom 0 rest
      else List.replicate pending '\\' ++ char :: unescapeFrom 0 rest

/-- The text that the inside of a bracket stands for. -/
def unescape (inside : Text) : Text :=
  unescapeFrom 0 inside

end AtomicCss.Bracket
