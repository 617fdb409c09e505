import AtomicCss.Text.Basic

/-!
# Blank characters

A character is blank when it has the Unicode property `White_Space`. Candidates on standard input
are separated by blanks, and author-written values, conditions and queries are trimmed of them.
Zero-width spaces and the byte-order mark are not blank.
-/

namespace AtomicCss

/-- The code points with the property `White_Space`, as closed ranges. -/
def blankRanges : List (Nat × Nat) :=
  [(0x09, 0x0D), (0x20, 0x20), (0x85, 0x85), (0xA0, 0xA0), (0x1680, 0x1680), (0x2000, 0x200A),
    (0x2028, 0x2029), (0x202F, 0x202F), (0x205F, 0x205F), (0x3000, 0x3000)]

/-- Whether a character has the Unicode property `White_Space`. -/
def isBlank (char : Char) : Bool :=
  blankRanges.any fun (first, last) => first ≤ char.toNat && char.toNat ≤ last

namespace Text

/-- The text without the blanks at its start. -/
def trimStart (text : Text) : Text :=
  text.dropWhile isBlank

/-- The text without the blanks at its end. -/
def trimEnd (text : Text) : Text :=
  text.dropEndWhile isBlank

/-- The text without the blanks at either end. -/
def trim (text : Text) : Text :=
  trimEnd (trimStart text)

def words (text : Text) : List Text :=
  (text.splitOnP isBlank).filter (!·.isEmpty)

end Text

end AtomicCss
