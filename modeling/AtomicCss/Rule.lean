import AtomicCss.AtRule

/-!
# Rules

A rule has a selector, declarations, and the at-rules around it, the outermost first.
-/

namespace AtomicCss

structure Declaration where
  property : Text
  value : Text
  deriving DecidableEq, Repr

/-- A rule with the at-rules around it, the outermost first. -/
structure Rule where
  selector : Text
  atRules : List AtRule
  declarations : List Declaration
  deriving DecidableEq, Repr

end AtomicCss
