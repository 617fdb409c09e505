import AtomicCss.Layout
import AtomicCss.Text.Blank
import AtomicCss.Text.Quoting

/-!
# Conditions

Conditions are printed as written, except for the blanks after the colon of a feature: a pretty
layout has some there, a minified one has none. A colon belongs to a feature when it follows a name
inside grouping parentheses. The parentheses of a function such as `selector(a:hover)` do not
group, and neither does anything inside them.
-/

namespace AtomicCss.Condition

/-- What the printer of a condition remembers: the quoting, the open parentheses from the innermost
outwards, each with whether it belongs to a function, the character just read, and whether blanks
are being dropped. -/
structure State where
  quoting : Quoting
  functions : List Bool
  previous : Option Char
  dropping : Bool
  deriving DecidableEq, Repr

namespace State

def start : State := ⟨.outside, [], none, false⟩

def followsName (state : State) : Bool :=
  state.previous.any isNameChar

/-- The state after reading `char`. -/
def next (state : State) (char : Char) : State :=
  let functions :=
    if !state.quoting.isLive char then state.functions
    else if char = '(' then state.followsName :: state.functions
    else if char = ')' then state.functions.tail
    else state.functions
  ⟨state.quoting.next char, functions, some char, false⟩

def isFeatureColon (state : State) (char : Char) : Bool :=
  state.quoting.isLive char && char = ':' && !state.functions.isEmpty &&
    !state.functions.any id && state.followsName

end State

/-- The space that a pretty layout puts after the colon of a feature, if no blank follows. -/
def spacing : Text → Text
  | [] => []
  | char :: _ => if isBlank char then [] else [' ']

def formatFrom (layout : Layout) (state : State) : Text → Text
  | [] => []
  | char :: rest =>
      if state.dropping && isBlank char then formatFrom layout state rest
      else if state.isFeatureColon char then
        match layout with
        | .pretty => char :: spacing rest ++ formatFrom layout (state.next char) rest
        | .minified => char :: formatFrom layout { state.next char with dropping := true } rest
      else char :: formatFrom layout (state.next char) rest

/-- A condition in a layout, without the blanks around it. -/
def format (layout : Layout) (condition : Text) : Text :=
  formatFrom layout .start condition.trim

end AtomicCss.Condition
