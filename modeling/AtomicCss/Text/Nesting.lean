import AtomicCss.Text.Quoting

/-!
# Nesting

How deep a reader stands in square brackets and parentheses. Only live characters open and close
groups. The two kinds are counted apart and need not close in the order in which they opened. A
closer without an opener is *stray*; it leaves the depth at zero, and a reader that must refuse it
asks `Nesting.isStray` first.
-/

namespace AtomicCss

/-- Quoting together with the number of open square brackets and of open parentheses. -/
structure Nesting where
  quoting : Quoting
  brackets : Nat
  parens : Nat
  deriving DecidableEq, Repr

namespace Nesting

/-- Outside every string, bracket and parenthesis. -/
def top : Nesting := ⟨.outside, 0, 0⟩

def next (state : Nesting) (char : Char) : Nesting :=
  let read := { state with quoting := state.quoting.next char }
  if !state.quoting.isLive char then read
  else if char = '[' then { read with brackets := state.brackets + 1 }
  else if char = ']' then { read with brackets := state.brackets - 1 }
  else if char = '(' then { read with parens := state.parens + 1 }
  else if char = ')' then { read with parens := state.parens - 1 }
  else read

/-- Whether `char` closes a group that is not open. -/
def isStray (state : Nesting) (char : Char) : Bool :=
  state.quoting.isLive char &&
    (char = ']' && state.brackets = 0 || char = ')' && state.parens = 0)

/-- Whether `char` is live and stands in no group. -/
def isTopLevel (state : Nesting) (char : Char) : Bool :=
  state.quoting.isLive char && state.brackets = 0 && state.parens = 0

/-- Whether a text may end here: nothing is open, though a backslash may be pending. -/
def isComplete (state : Nesting) : Bool :=
  state.quoting.quote.isNone && state.brackets = 0 && state.parens = 0

end Nesting

end AtomicCss
