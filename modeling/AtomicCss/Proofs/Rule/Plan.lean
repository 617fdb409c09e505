import AtomicCss.Rule.Plan

/-!
# Plans of longer chains

What one more variant adds to the plan of a chain, and the selector of a chain without fragments:
there every step puts a suffix after the selector, so that the steps together do so as well.
-/

namespace AtomicCss

/-- What a variant puts after the selector. -/
def Variant.suffix (variant : Variant) : Text :=
  match variant.step? with
  | some (.append suffix) => suffix
  | _ => []

theorem Variant.exists_atRule?_of_isAtRule {variant : Variant}
    (wraps : variant.kind.isAtRule = true) : ∃ atRule, variant.atRule? = some atRule := by
  simp only [atRule?]
  cases kindEq : variant.kind <;> simp_all [Kind.isAtRule]

/-- Every step is made of the parameter of the variant that adds it. -/
theorem Variant.step?_eq_some {variant : Variant} {step : Step}
    (stepEq : variant.step? = some step) :
    variant.kind.isAtRule = false ∧
      (step = .append variant.parameter ∨ step = .append ('[' :: variant.parameter ++ "]") ∨
        step = .fill variant.parameter) := by
  simp only [step?] at stepEq
  cases kindEq : variant.kind <;> simp_all [Kind.isAtRule]

namespace Plan

theorem hasFragment_eq_false_iff {chain : List Variant} :
    hasFragment chain = false ↔ ∀ variant ∈ chain, variant.kind ≠ .arbitrarySelector := by
  simp [hasFragment]

theorem ofChain_eq_ok {chain : List Variant} {plan : Plan} (planned : ofChain chain = .ok plan) :
    plan.subject = (if hasFragment chain then .base else .candidate) ∧
      plan.steps = chain.filterMap Variant.step? ∧
      plan.atRules = chain.filterMap Variant.atRule? := by
  simp only [ofChain] at planned
  split at planned
  · cases planned
  · cases planned
    exact ⟨rfl, rfl, rfl⟩

theorem exists_eq_of_ofChain_error {chain : List Variant} {refusal : Refusal}
    (refused : ofChain chain = .error refusal) : ∃ segment, refusal = .mixedSelectors segment := by
  simp only [ofChain] at refused
  split at refused
  · rename_i variant _
    cases refused
    exact ⟨variant.written, rfl⟩
  · cases refused

theorem ofChain_cons_of_atRule? {variant : Variant} {atRule : AtRule}
    (wraps : variant.atRule? = some atRule) (chain : List Variant) :
    ofChain (variant :: chain) =
      (ofChain chain).map fun plan => { plan with atRules := atRule :: plan.atRules } := by
  have isAtRule : variant.kind.isAtRule = true := by
    simp only [Variant.atRule?] at wraps
    cases kindEq : variant.kind <;> simp_all [Variant.Kind.isAtRule]
  have noStep : variant.step? = none := by
    simp only [Variant.step?]
    cases kindEq : variant.kind <;> simp_all [Variant.Kind.isAtRule]
  have sameFragments : hasFragment (variant :: chain) = hasFragment chain := by
    simp only [hasFragment, List.any_cons]
    cases kindEq : variant.kind <;> simp_all [Variant.Kind.isAtRule]
  have sameMisplaced : misplaced? (variant :: chain) = misplaced? chain := by
    have notNamed : variant.kind.isNamedSelector = false := by
      cases kindEq : variant.kind <;> simp_all [Variant.Kind.isAtRule, Variant.Kind.isNamedSelector]
    simp [misplaced?, sameFragments, notNamed]
  simp only [ofChain, sameMisplaced, sameFragments, List.filterMap_cons, noStep, wraps]
  cases misplaced? chain <;> rfl

/-- Without fragments, the steps put the suffixes of the variants after the selector. -/
theorem foldl_apply_eq_append {chain : List Variant} (noFragment : hasFragment chain = false)
    (initial : Text) :
    (chain.filterMap Variant.step?).foldl Step.apply initial =
      initial ++ chain.flatMap Variant.suffix := by
  rw [hasFragment_eq_false_iff] at noFragment
  induction chain generalizing initial with
  | nil => simp
  | cons variant chain ih =>
      have notFragment := noFragment variant (by simp)
      have others := ih (fun other member => noFragment other (by simp [member]))
      simp only [List.filterMap_cons, List.flatMap_cons, Variant.suffix]
      cases stepEq : variant.step? with
      | none => simp [others]
      | some step =>
          cases step with
          | append suffix => simp [others, Step.apply]
          | fill fragment =>
              simp only [Variant.step?] at stepEq
              cases kindEq : variant.kind <;> simp_all

/-- What the step of every variant preserves, all steps of a chain together preserve. -/
theorem foldl_apply_preserves (Good : Text → Prop) {chain : List Variant}
    (preserves : ∀ variant ∈ chain, ∀ step, variant.step? = some step →
      ∀ selector, Good selector → Good (step.apply selector))
    {selector : Text} (good : Good selector) :
    Good ((chain.filterMap Variant.step?).foldl Step.apply selector) := by
  induction chain generalizing selector with
  | nil => exact good
  | cons variant chain ih =>
      have others := fun other member => preserves other (List.mem_cons_of_mem variant member)
      rw [List.filterMap_cons]
      cases stepEq : variant.step? with
      | none => exact ih others good
      | some step =>
          exact ih others (preserves variant List.mem_cons_self step stepEq selector good)

end Plan

end AtomicCss
