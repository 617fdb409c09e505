import AtomicCss.Text.Basic

/-!
# Refusals

Why a candidate yields no rule. A refusal concerns one candidate only: a batch records it and goes
on with the next one.
-/

namespace AtomicCss

/-- The reasons for which a candidate is not compiled. -/
inductive Refusal
  /-- A bracket, parenthesis or quote does not match; `remainder` starts with the segment at
  fault. -/
  | unbalanced (candidate remainder : Text)
  /-- A segment is in nobody's vocabulary. -/
  | unknownVariant (segment : Text)
  /-- A named selector variant stands in a chain with a selector fragment. -/
  | mixedSelectors (segment : Text)
  /-- No utility has this name. -/
  | unknownUtility (name : Text)
  deriving DecidableEq, Repr

def Refusal.message : Refusal → Text
  | .unbalanced candidate remainder =>
      "unbalanced bracket expression in `" ++ candidate ++ "` near `" ++ remainder ++ "`"
  | .unknownVariant segment => "unknown variant `" ++ segment ++ "`"
  | .mixedSelectors segment =>
      "variant `" ++ segment ++ "` cannot be stacked with an arbitrary selector variant"
  | .unknownUtility name => "unresolved utility `" ++ name ++ "`"

end AtomicCss
