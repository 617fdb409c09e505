import AtomicCss.Text.Basic

/-!
# At-rules

The wrappers that a rule may stand in: a media query or a feature query, each with its condition.
-/

namespace AtomicCss

inductive AtRule.Kind
  | media
  | supports
  deriving DecidableEq, Repr

/-- An at-rule without the rules inside it. -/
structure AtRule where
  kind : AtRule.Kind
  condition : Text
  deriving DecidableEq, Repr

namespace AtRule

def Kind.keyword : Kind → Text
  | .media => "@media"
  | .supports => "@supports"

end AtRule

end AtomicCss
