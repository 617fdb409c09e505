import AtomicCss.Proofs.FirstReading
import AtomicCss.Proofs.Rule.Plan

/-!
# How variants may be mixed in a chain

A plan makes an at-rule of each variant of one sort and a step of each variant of the other, so that
all that it knows of a chain are the variants of either sort in their order. Chains that mix the
same variants of either sort in different ways have the same plan, or are refused for the same
variant.
-/

namespace AtomicCss

namespace Variant

/-- The at-rule that a variant wraps its rule in, kind by kind. -/
inductive Wraps (variant : Variant) : AtRule → Prop
  | minWidth (kind : variant.kind = .responsive ∨ variant.kind = .minWidth) :
      Wraps variant ⟨.media, "(min-width: " ++ variant.parameter ++ ")"⟩
  | maxWidth (kind : variant.kind = .maxWidth) :
      Wraps variant ⟨.media, "(max-width: " ++ variant.parameter ++ ")"⟩
  | query (kind : variant.kind = .mediaFeature ∨ variant.kind = .arbitraryMedia) :
      Wraps variant ⟨.media, variant.parameter⟩
  | supports (kind : variant.kind = .supports) :
      Wraps variant ⟨.supports, "(" ++ variant.parameter ++ ")"⟩

/-- The step that a variant adds to the making of the selector, kind by kind. -/
inductive Adds (variant : Variant) : Step → Prop
  | pseudo (kind : variant.kind = .pseudoClass ∨ variant.kind = .pseudoElement) :
      Adds variant (.append variant.parameter)
  | clause (kind : variant.kind = .aria ∨ variant.kind = .data) :
      Adds variant (.append ("[" ++ variant.parameter ++ "]"))
  | fragment (kind : variant.kind = .arbitrarySelector) : Adds variant (.fill variant.parameter)

/-- Named selector variants are those for which the vocabulary says what they add. -/
def IsNamed (variant : Variant) : Prop :=
  variant.kind = .pseudoClass ∨ variant.kind = .pseudoElement ∨ variant.kind = .aria ∨
    variant.kind = .data

theorem isNamedSelector_eq_true_iff {variant : Variant} :
    variant.kind.isNamedSelector = true ↔ variant.IsNamed := by
  simp only [IsNamed]
  cases variant.kind <;> simp [Kind.isNamedSelector]

/-- Every variant either wraps the rule or changes its selector. -/
theorem wraps_or_adds (variant : Variant) :
    (variant.kind.isAtRule = true ∧ variant.step? = none ∧
      ∃ atRule, variant.atRule? = some atRule ∧ variant.Wraps atRule) ∨
    (variant.kind.isAtRule = false ∧ variant.atRule? = none ∧
      ∃ step, variant.step? = some step ∧ variant.Adds step) := by
  cases kindEq : variant.kind with
  | responsive | minWidth =>
      have noStep : variant.step? = none := by simp [step?, kindEq]
      exact .inl ⟨rfl, noStep, _, by simp [atRule?, kindEq], .minWidth (by simp [kindEq])⟩
  | maxWidth =>
      have noStep : variant.step? = none := by simp [step?, kindEq]
      exact .inl ⟨rfl, noStep, _, by simp [atRule?, kindEq], .maxWidth kindEq⟩
  | mediaFeature | arbitraryMedia =>
      have noStep : variant.step? = none := by simp [step?, kindEq]
      exact .inl ⟨rfl, noStep, _, by simp [atRule?, kindEq], .query (by simp [kindEq])⟩
  | supports =>
      have noStep : variant.step? = none := by simp [step?, kindEq]
      exact .inl ⟨rfl, noStep, _, by simp [atRule?, kindEq], .supports kindEq⟩
  | pseudoClass | pseudoElement =>
      have noAtRule : variant.atRule? = none := by simp [atRule?, kindEq]
      exact .inr ⟨rfl, noAtRule, _, by simp [step?, kindEq], .pseudo (by simp [kindEq])⟩
  | aria | data =>
      have noAtRule : variant.atRule? = none := by simp [atRule?, kindEq]
      exact .inr ⟨rfl, noAtRule, _, by simp [step?, kindEq], .clause (by simp [kindEq])⟩
  | arbitrarySelector =>
      have noAtRule : variant.atRule? = none := by simp [atRule?, kindEq]
      exact .inr ⟨rfl, noAtRule, _, by simp [step?, kindEq], .fragment kindEq⟩

end Variant

namespace Plan

/-- The variants of a chain that wrap the rule. -/
def wrappers (chain : List Variant) : List Variant :=
  chain.filter (·.kind.isAtRule)

/-- The variants of a chain that change the selector. -/
def selectors (chain : List Variant) : List Variant :=
  chain.filter (!·.kind.isAtRule)

/-- A plan sorts a chain if it holds one at-rule for each of its wrappers, one step for each of its
other variants, both in order, and nothing else. -/
structure Sorts (plan : Plan) (chain : List Variant) : Prop where
  atRules : List.Forall₂ Variant.Wraps (wrappers chain) plan.atRules
  steps : List.Forall₂ Variant.Adds (selectors chain) plan.steps
  subject : plan.subject = .base ↔ ∃ variant ∈ chain, variant.kind = .arbitrarySelector

/-- Whether fragments and named selector variants stand in the same chain. -/
def Mixes (chain : List Variant) : Prop :=
  (∃ variant ∈ chain, variant.kind = .arbitrarySelector) ∧ ∃ variant ∈ chain, variant.IsNamed

def IsLeftmostNamed (chain : List Variant) (variant : Variant) : Prop :=
  variant.IsNamed ∧
    ∃ before after, chain = before ++ variant :: after ∧ ∀ other ∈ before, ¬other.IsNamed

/-! ### What a plan knows of a chain -/

/-- A scan of a chain that passes over its wrappers is a scan of its other variants. -/
theorem hasFragment_selectors (chain : List Variant) :
    hasFragment (selectors chain) = hasFragment chain := by
  have passes (variant : Variant) : (!variant.kind.isAtRule &&
      decide (variant.kind = .arbitrarySelector)) = decide (variant.kind = .arbitrarySelector) := by
    cases variant.kind <;> rfl
  simp only [hasFragment, selectors, List.any_filter, passes]

theorem find?_isNamedSelector_selectors (chain : List Variant) :
    (selectors chain).find? (·.kind.isNamedSelector) = chain.find? (·.kind.isNamedSelector) := by
  have passes (variant : Variant) : decide ((!variant.kind.isAtRule) = true ∧
      variant.kind.isNamedSelector = true) = variant.kind.isNamedSelector := by
    cases variant.kind <;> rfl
  simp only [selectors, List.find?_filter, passes]

theorem filterMap_step?_selectors (chain : List Variant) :
    (selectors chain).filterMap Variant.step? = chain.filterMap Variant.step? := by
  apply filterMap_filter_eq
  intro variant
  rcases variant.wraps_or_adds with ⟨wraps, noStep, -⟩ | ⟨notWrapper, -⟩
  · simp [wraps, noStep]
  · simp [notWrapper]

theorem filterMap_atRule?_wrappers (chain : List Variant) :
    (wrappers chain).filterMap Variant.atRule? = chain.filterMap Variant.atRule? := by
  apply filterMap_filter_eq
  intro variant
  rcases variant.wraps_or_adds with ⟨wraps, -⟩ | ⟨notWrapper, noAtRule, -⟩
  · simp [wraps]
  · simp [notWrapper, noAtRule]

/-- Chains with the same wrappers and the same other variants are planned alike. -/
theorem ofChain_congr {left right : List Variant} (sameWrappers : wrappers left = wrappers right)
    (sameSelectors : selectors left = selectors right) : ofChain left = ofChain right := by
  have sameFragments : hasFragment left = hasFragment right := by
    rw [← hasFragment_selectors left, sameSelectors, hasFragment_selectors]
  have sameMisplaced : misplaced? left = misplaced? right := by
    rw [misplaced?, misplaced?, sameFragments, ← find?_isNamedSelector_selectors left,
      sameSelectors, find?_isNamedSelector_selectors]
  have sameSteps : left.filterMap Variant.step? = right.filterMap Variant.step? := by
    rw [← filterMap_step?_selectors left, sameSelectors, filterMap_step?_selectors]
  have sameAtRules : left.filterMap Variant.atRule? = right.filterMap Variant.atRule? := by
    rw [← filterMap_atRule?_wrappers left, sameWrappers, filterMap_atRule?_wrappers]
  rw [ofChain, ofChain, sameMisplaced, sameFragments, sameSteps, sameAtRules]

/-! ### What a chain is sorted into -/

theorem forall₂_wrappers (chain : List Variant) :
    List.Forall₂ Variant.Wraps (wrappers chain) (chain.filterMap Variant.atRule?) := by
  rw [← filterMap_atRule?_wrappers]
  apply forall₂_filterMap
  intro variant member
  rcases variant.wraps_or_adds with ⟨-, -, found⟩ | ⟨notWrapper, -⟩
  · exact found
  · simp [wrappers, notWrapper] at member

theorem forall₂_selectors (chain : List Variant) :
    List.Forall₂ Variant.Adds (selectors chain) (chain.filterMap Variant.step?) := by
  rw [← filterMap_step?_selectors]
  apply forall₂_filterMap
  intro variant member
  rcases variant.wraps_or_adds with ⟨wraps, -⟩ | ⟨-, -, found⟩
  · simp [selectors, wraps] at member
  · exact found

theorem hasFragment_iff {chain : List Variant} :
    hasFragment chain = true ↔ ∃ variant ∈ chain, variant.kind = .arbitrarySelector := by
  simp [hasFragment]

theorem sorts_of_ofChain {chain : List Variant} {plan : Plan} (planned : ofChain chain = .ok plan) :
    plan.Sorts chain := by
  rcases ofChain_eq_ok planned with ⟨subjectEq, stepsEq, atRulesEq⟩
  constructor
  · rw [atRulesEq]
    exact forall₂_wrappers chain
  · rw [stepsEq]
    exact forall₂_selectors chain
  · rw [subjectEq, ← hasFragment_iff]
    cases hasFragment chain <;> simp

/-! ### Which variant is refused -/

theorem misplaced?_eq_some_iff {chain : List Variant} {variant : Variant} :
    misplaced? chain = some variant ↔
      (∃ other ∈ chain, other.kind = .arbitrarySelector) ∧ IsLeftmostNamed chain variant := by
  rw [← hasFragment_iff, IsLeftmostNamed, misplaced?]
  cases hasFragment chain with
  | false => simp
  | true => simp [List.find?_eq_some_iff_append, ← Variant.isNamedSelector_eq_true_iff]

theorem misplaced?_eq_none_iff {chain : List Variant} :
    misplaced? chain = none ↔ ¬Mixes chain := by
  rw [Mixes, ← hasFragment_iff, misplaced?]
  cases hasFragment chain with
  | false => simp
  | true => simp [← Variant.isNamedSelector_eq_true_iff]

theorem mixes_of_isLeftmostNamed {chain : List Variant} {variant : Variant}
    (fragment : ∃ other ∈ chain, other.kind = .arbitrarySelector)
    (leftmost : IsLeftmostNamed chain variant) : Mixes chain := by
  rcases leftmost with ⟨named, before, after, rfl, -⟩
  exact ⟨fragment, variant, by simp, named⟩

/-- A chain is refused exactly if it mixes fragments with named selector variants, for the leftmost
of the latter, and otherwise its plan sorts it. How wrappers and other variants are mixed makes no
difference to the plan, nor to the selectors that it builds. -/
theorem ofChain_sorts (chain : List Variant) :
    (match ofChain chain with
      | .error refusal => Mixes chain ∧
          ∃ variant, IsLeftmostNamed chain variant ∧ refusal = .mixedSelectors variant.written
      | .ok plan => ¬Mixes chain ∧ plan.Sorts chain) ∧
    ∀ other, wrappers other = wrappers chain → selectors other = selectors chain →
      ofChain other = ofChain chain ∧
      ∀ initial, (ofChain other).map (·.selector initial) =
        (ofChain chain).map (·.selector initial) := by
  refine ⟨?_, fun other sameWrappers sameSelectors => ?_⟩
  · cases misplaced : misplaced? chain with
    | some variant =>
        have refused : ofChain chain = .error (.mixedSelectors variant.written) := by
          rw [ofChain, misplaced]
        rcases misplaced?_eq_some_iff.mp misplaced with ⟨fragment, leftmost⟩
        rw [refused]
        exact ⟨mixes_of_isLeftmostNamed fragment leftmost, variant, leftmost, rfl⟩
    | none =>
        cases planned : ofChain chain with
        | error refusal => simp [ofChain, misplaced] at planned
        | ok plan => exact ⟨misplaced?_eq_none_iff.mp misplaced, sorts_of_ofChain planned⟩
  · have same := ofChain_congr sameWrappers sameSelectors
    exact ⟨same, fun initial => by rw [same]⟩

/-- Where a screen and a condition stand beside a pseudo-class and an attribute makes no difference.
With a fragment in the chain, the pseudo-class is refused, being the first of the two. -/
theorem ofChain_sorts_hoverScreen :
    let hover : Variant := ⟨.pseudoClass, "hover", ":hover"⟩
    let opened : Variant := ⟨.data, "data-[state=open]", "data-state=\"open\""⟩
    let screen : Variant := ⟨.responsive, "md", "768px"⟩
    let grid : Variant := ⟨.supports, "supports-[display:grid]", "display:grid"⟩
    let children : Variant := ⟨.arbitrarySelector, "[&>p]", "& > p"⟩
    let plan : Plan :=
      { subject := .candidate
        steps := [.append ":hover", .append "[data-state=\"open\"]"]
        atRules := [⟨.media, "(min-width: 768px)"⟩, ⟨.supports, "(display:grid)"⟩] }
    ofChain [hover, screen, opened, grid] = .ok plan ∧
      plan.Sorts [hover, screen, opened, grid] ∧
      ofChain [screen, grid, hover, opened] = .ok plan ∧
      (ofChain [screen, grid, hover, opened]).map (·.selector ".box") =
        .ok ".box:hover[data-state=\"open\"]" ∧
      ofChain [screen, children, hover, opened] = .error (.mixedSelectors "hover") ∧
      Mixes [screen, children, hover, opened] := by
  intro hover opened screen grid children plan
  have planned : ofChain [hover, screen, opened, grid] = .ok plan := rfl
  have sorted := (ofChain_sorts [hover, screen, opened, grid]).1
  have same := (ofChain_sorts [hover, screen, opened, grid]).2 [screen, grid, hover, opened] rfl rfl
  have refused : ofChain [screen, children, hover, opened] = .error (.mixedSelectors "hover") := rfl
  have mixed := (ofChain_sorts [screen, children, hover, opened]).1
  rw [planned] at sorted same
  rw [refused] at mixed
  exact ⟨planned, sorted.2, same.1, same.2 ".box", refused, mixed.1⟩

end Plan

end AtomicCss
