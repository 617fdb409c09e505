import AtomicCss.Text.Basic

/-!
# Lines

A line feed ends a line, and a carriage return directly before it belongs to the line's end. A
carriage return anywhere else is an ordinary character, and a line feed at the end of a text opens
no further line.
-/

namespace AtomicCss.Text

/-- The lines of a text, without their ends. -/
def lines : Text → List Text
  | [] => []
  | '\n' :: rest => [] :: lines rest
  | '\r' :: '\n' :: rest => [] :: lines rest
  | char :: rest =>
      match lines rest with
      | [] => [[char]]
      | line :: others => (char :: line) :: others

def unlines (rows : List Text) : Text :=
  ['\n'].intercalate rows

/-- A line moved right by `width` spaces; a line that holds nothing stays empty. -/
def indent (width : Nat) (line : Text) : Text :=
  if line.isEmpty then [] else List.replicate width ' ' ++ line

end AtomicCss.Text
