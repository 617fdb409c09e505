import AtomicCss.Candidate
import AtomicCss.Rule.Plan
import AtomicCss.Utility
import AtomicCss.Vocabulary

/-!
# Uses of utilities

A candidate that has been understood is the use of a utility: the base names the utility, and the
chain of variants says how it is used. Giving the utility's declarations to the class that the
whole candidate names yields a rule.
-/

namespace AtomicCss

/-- A utility in use: the candidate as written, its variants from left to right, and its base. -/
structure Usage where
  written : Text
  chain : List Variant
  base : Text
  deriving DecidableEq, Repr

/-- The use that a candidate writes. A candidate without a base is refused before its variants are
looked at. -/
def Vocabulary.usage (vocabulary : Vocabulary) (candidate : Text) : Except Refusal Usage := do
  let split ← Candidate.split candidate
  if split.base.isEmpty then throw (.unknownUtility candidate)
  let chain ← vocabulary.chain split.variants
  return ⟨candidate, chain, split.base⟩

namespace Usage

/-- The selector of the class that the steps of a plan start from. -/
def subject (usage : Usage) (plan : Plan) : Text :=
  match plan.subject with
  | .candidate => Identifier.classSelector usage.written
  | .base => Identifier.classSelector usage.base

/-- The rule for this use of `utility`. The selector that the plan builds takes the place of the
base's class in the utility's template, which must hold that class. -/
def rule (usage : Usage) (utility : Utility) : Except Refusal Rule := do
  let plan ← Plan.ofChain usage.chain
  let selector := plan.selector (usage.subject plan)
  match utility.template.replaceFirst? (Identifier.classSelector usage.base) selector with
  | some selector => return ⟨selector, plan.atRules, utility.declarations⟩
  | none => throw (.unknownUtility usage.base)

end Usage

end AtomicCss
