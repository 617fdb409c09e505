import AtomicCss.Text.Nesting

/-!
# Selector fragments

A fragment is a selector with slots: every live `&` stands for a selector that `fill` puts there.
A fragment written by an author may be spliced into a style sheet only if it cannot end the rule
that it becomes part of and if no slot is glued to a name, where the filled-in class would be lost.
-/

namespace AtomicCss.Fragment

/-- The character that stands for the selector to be filled in. -/
def slot : Char := '&'

def hasSlot (fragment : Text) : Bool :=
  fragment.live.contains slot

/-- Characters that end a rule or start another one. -/
def isRulePunctuation (char : Char) : Bool :=
  char = '\x7b' || char = '\x7d' || char = ';' || char = '@'

/-- Whether some slot comes directly after a name character. -/
def hasGluedSlot : Text → Bool
  | first :: second :: rest =>
      isNameChar first && second = slot || hasGluedSlot (second :: rest)
  | _ => false

/-- Whether a fragment may become part of a rule's selector. Only its live characters matter. -/
def isSpliceable (fragment : Text) : Bool :=
  hasSlot fragment && !fragment.live.any isRulePunctuation && !hasGluedSlot fragment.live

/-- Fills the slots of the rest of a fragment. -/
def fillFrom (state : Quoting) (selector : Text) : Text → Text
  | [] => []
  | char :: rest =>
      if state.isLive char && char = slot then
        selector ++ fillFrom (state.next char) selector rest
      else char :: fillFrom (state.next char) selector rest

/-- The fragment with `selector` in place of every slot. -/
def fill (fragment selector : Text) : Text :=
  fillFrom .outside selector fragment

/-- Whether `char` combines two compound selectors, the descendant space apart. -/
def isCombinator (char : Char) : Bool :=
  char = '>' || char = '+' || char = '~'

/-- What `spaceCombinators` has read but not yet written, and whether it has written anything. The
`gap` counts spaces held back; after a combinator it is one and further spaces are dropped. -/
structure Spacing where
  nesting : Nesting
  gap : Nat
  afterCombinator : Bool
  started : Bool
  deriving DecidableEq, Repr

def spaceFrom (state : Spacing) : Text → Text
  | [] => List.replicate state.gap ' '
  | char :: rest =>
      let nesting := state.nesting.next char
      if char = ' ' then
        if state.afterCombinator then spaceFrom state rest
        else spaceFrom { state with nesting, gap := state.gap + 1 } rest
      else if state.nesting.isTopLevel char && isCombinator char then
        let lead := if state.started then [' '] else []
        lead ++ char :: spaceFrom ⟨nesting, 1, true, true⟩ rest
      else
        List.replicate state.gap ' ' ++ char :: spaceFrom ⟨nesting, 0, false, true⟩ rest

/-- Puts one space before and after each combinator that stands outside strings and groups; one
that starts the fragment has none before it. -/
def spaceCombinators (fragment : Text) : Text :=
  spaceFrom ⟨.top, 0, false, false⟩ fragment

end AtomicCss.Fragment
