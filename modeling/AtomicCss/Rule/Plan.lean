import AtomicCss.Fragment
import AtomicCss.Refusal
import AtomicCss.Rule
import AtomicCss.Variant.Basic

/-!
# Plans

What a chain of variants does to a rule: steps that build its selector, and at-rules to wrap it in.
The two do not interact, so a plan is read off the chain by taking the at-rules of its variants and
the steps of its variants, each in the order of the chain.

A chain with a selector fragment starts from the class of the base alone, since the fragment says
itself where the class goes. Named selector variants cannot stand in such a chain.
-/

namespace AtomicCss

inductive Step
  /-- Puts a suffix after the selector. -/
  | append (suffix : Text)
  /-- Puts the selector into the slots of a fragment. -/
  | fill (fragment : Text)
  deriving DecidableEq, Repr

def Step.apply (selector : Text) : Step → Text
  | .append suffix => selector ++ suffix
  | .fill fragment => Fragment.fill fragment selector

namespace Variant

/-- The at-rule that a variant wraps its rule in. -/
def atRule? (variant : Variant) : Option AtRule :=
  match variant.kind with
  | .responsive | .minWidth => some ⟨.media, "(min-width: " ++ variant.parameter ++ ")"⟩
  | .maxWidth => some ⟨.media, "(max-width: " ++ variant.parameter ++ ")"⟩
  | .mediaFeature | .arbitraryMedia => some ⟨.media, variant.parameter⟩
  | .supports => some ⟨.supports, '(' :: variant.parameter ++ ")"⟩
  | .pseudoClass | .pseudoElement | .aria | .data | .arbitrarySelector => none

def step? (variant : Variant) : Option Step :=
  match variant.kind with
  | .pseudoClass | .pseudoElement => some (.append variant.parameter)
  | .aria | .data => some (.append ('[' :: variant.parameter ++ "]"))
  | .arbitrarySelector => some (.fill variant.parameter)
  | .responsive | .minWidth | .maxWidth | .mediaFeature | .arbitraryMedia | .supports => none

end Variant

inductive Subject
  /-- The class named by the whole candidate. -/
  | candidate
  /-- The class named by the base alone. -/
  | base
  deriving DecidableEq, Repr

/-- What a chain of variants does to a rule; the at-rules are listed from the outermost. -/
structure Plan where
  subject : Subject
  steps : List Step
  atRules : List AtRule
  deriving DecidableEq, Repr

namespace Plan

def hasFragment (chain : List Variant) : Bool :=
  chain.any (·.kind = .arbitrarySelector)

/-- The first named selector variant that may not stand in its chain. -/
def misplaced? (chain : List Variant) : Option Variant :=
  if hasFragment chain then chain.find? (·.kind.isNamedSelector) else none

def ofChain (chain : List Variant) : Except Refusal Plan :=
  match misplaced? chain with
  | some variant => .error (.mixedSelectors variant.written)
  | none =>
      .ok
        { subject := if hasFragment chain then .base else .candidate
          steps := chain.filterMap Variant.step?
          atRules := chain.filterMap Variant.atRule? }

/-- The selector that the steps of a plan make from `initial`. -/
def selector (plan : Plan) (initial : Text) : Text :=
  plan.steps.foldl Step.apply initial

end Plan

end AtomicCss
