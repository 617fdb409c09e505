import AtomicCss.Bracket.Content
import AtomicCss.Dictionary
import AtomicCss.Text.Digits

/-!
# The spacing scale

Paddings, margins and gaps are named by steps of a quarter `rem`. The scale has half steps at its
start and leaves out more and more steps towards its end. Other lengths are written in brackets.
-/

namespace AtomicCss.Spacing

/-- The steps of the scale, counted in half steps. -/
def halfSteps : List Nat :=
  [1, 2, 3, 4, 5, 6, 7, 8, 10, 12, 14, 16, 18, 20, 22, 24, 28, 32, 40, 48, 56, 64, 72, 80, 88, 96,
    104, 112, 120, 128, 144, 160, 192]

def step (halves : Nat) : Text × Text :=
  (Text.ofScaled (5 * halves) 1, Text.ofScaled (125 * halves) 3 ++ "rem")

def scale : Dictionary Text :=
  ("0", "0px") :: ("px", "1px") :: halfSteps.map step

/-- The length that a class name asks for, by name or in brackets. -/
def length? (token : Text) : Option Text :=
  (scale.lookup token).or (Bracket.filled? token)

end AtomicCss.Spacing
