import AtomicCss.Proofs.Candidate.Segments
import AtomicCss.Proofs.Compiler.Stages
import AtomicCss.Proofs.Rule.Plan
import AtomicCss.Proofs.Variant.Forms

/-!
# Wrapping variants

A variant that wraps the rule in an at-rule can be put in front of any candidate. The longer
candidate is compiled exactly when the shorter one is; its rule stands in one more at-rule and is
otherwise the same, apart from the class that it is given, and its refusal is the same, apart from
the name of the candidate where the candidate as a whole is refused. Each stage of the compilation
is followed in turn: the split, the use, the plan.
-/

namespace AtomicCss

/-- Whether a candidate has segments, but an empty base. -/
def Candidate.lacksBase (candidate : Text) : Bool :=
  match split candidate with
  | .ok split => split.base.isEmpty
  | .error _ => false

/-- The refusal of `longer` that answers to a refusal of `candidate`, which `longer` ends with. Only
a refusal of the candidate as a whole names it. -/
def Refusal.widened (candidate longer : Text) : Refusal → Refusal
  | .unbalanced _ remainder => .unbalanced longer remainder
  | .unknownUtility name =>
      if Candidate.lacksBase candidate then .unknownUtility longer else .unknownUtility name
  | .unknownVariant segment => .unknownVariant segment
  | .mixedSelectors segment => .mixedSelectors segment

theorem Candidate.split_append_separator {segment : Text} (whole : isSealed segment = true)
    (candidate : Text) :
    split (segment ++ ':' :: candidate) =
      match split candidate with
      | .ok split => .ok (split.prepend segment)
      | .error refusal => .error (refusal.widened candidate (segment ++ ':' :: candidate)) := by
  have stays : Nesting.top.within? segment = some .top := by simpa [isSealed] using whole
  rw [split, splitFrom_append_separator stays, split]
  cases splitFrom .top candidate candidate <;> rfl

namespace Vocabulary

variable {vocabulary : Vocabulary}

theorem exists_eq_of_chain_error {segments : List Text} {refusal : Refusal}
    (refused : vocabulary.chain segments = .error refusal) :
    ∃ segment, refusal = .unknownVariant segment := by
  induction segments with
  | nil => cases refused
  | cons segment segments ih =>
      rw [chain_cons] at refused
      cases read : vocabulary.variant? segment with
      | none =>
          simp only [read, Except.error.injEq] at refused
          exact ⟨segment, refused.symm⟩
      | some variant =>
          cases others : vocabulary.chain segments with
          | error other =>
              simp only [read, others, Except.map, Except.error.injEq] at refused
              subst refused
              exact ih others
          | ok chain => simp [read, others, Except.map] at refused

/-- A known variant in front becomes the first of the chain. -/
theorem usage_append_separator {segment : Text} {variant : Variant}
    (whole : Candidate.isSealed segment = true)
    (read : vocabulary.variant? segment = some variant) (candidate : Text) :
    vocabulary.usage (segment ++ ':' :: candidate) =
      match vocabulary.usage candidate with
      | .ok usage => .ok ⟨segment ++ ':' :: candidate, variant :: usage.chain, usage.base⟩
      | .error refusal => .error (refusal.widened candidate (segment ++ ':' :: candidate)) := by
  have splits := Candidate.split_append_separator whole candidate
  cases shorter : Candidate.split candidate with
  | error refusal =>
      rw [shorter] at splits
      rw [usage_of_split_error splits, usage_of_split_error shorter]
  | ok split =>
      rw [shorter] at splits
      change Candidate.split (segment ++ ':' :: candidate) =
        .ok ⟨segment :: split.variants, split.base⟩ at splits
      rw [usage_of_split splits, usage_of_split shorter]
      by_cases noBase : split.base.isEmpty = true
      · have lacksBase : Candidate.lacksBase candidate = true := by
          simpa [Candidate.lacksBase, shorter] using noBase
        simp [noBase, Refusal.widened, lacksBase]
      · rw [if_neg noBase, if_neg noBase, chain_cons, read]
        cases others : vocabulary.chain split.variants with
        | error refusal =>
            rcases exists_eq_of_chain_error others with ⟨unknown, rfl⟩
            rfl
        | ok chain => rfl

end Vocabulary

namespace Compiler

section Wrapped

variable {settings : Settings} {segment : Text} {variant : Variant} {atRule : AtRule}
  (whole : Candidate.isSealed segment = true)
  (read : (ofSettings settings).vocabulary.variant? segment = some variant)
  (wraps : variant.atRule? = some atRule)

include whole read wraps

/-- What the wrapped rule is made of: the same plan with one more at-rule, for another class. -/
theorem compile_append_separator_of_usage {candidate : Text} {usage : Usage}
    (understood : (ofSettings settings).vocabulary.usage candidate = .ok usage) :
    (ofSettings settings).compile (segment ++ ':' :: candidate) =
      match settings.declarations? usage.base with
      | none => .error (.unknownUtility usage.base)
      | some declarations =>
          (Plan.ofChain usage.chain).map fun plan =>
            ⟨plan.selector
              (({ usage with written := segment ++ ':' :: candidate } : Usage).subject plan),
              atRule :: plan.atRules, declarations⟩ := by
  have longer := Vocabulary.usage_append_separator whole read candidate
  rw [understood] at longer
  rw [compile_of_usage longer]
  cases settings.declarations? usage.base with
  | none => rfl
  | some declarations =>
      rw [Plan.ofChain_cons_of_atRule? wraps]
      cases Plan.ofChain usage.chain <;> rfl

theorem compile_append_separator_of_ok {candidate : Text} {rule : Rule}
    (compiled : (ofSettings settings).compile candidate = .ok rule) :
    ∃ usage selector, (ofSettings settings).vocabulary.usage candidate = .ok usage ∧
      (ofSettings settings).compile (segment ++ ':' :: candidate) =
        .ok ⟨selector, atRule :: rule.atRules, rule.declarations⟩ ∧
      if Plan.hasFragment usage.chain then selector = rule.selector
      else ∃ suffix, rule.selector = '.' :: Identifier.encode candidate ++ suffix ∧
        selector = '.' :: Identifier.encode (segment ++ ':' :: candidate) ++ suffix := by
  rcases compile_eq_ok compiled with
    ⟨usage, plan, declarations, understood, declared, ofChain, rfl⟩
  have longer := compile_append_separator_of_usage whole read wraps understood
  simp only [declared, ofChain, Except.map] at longer
  refine ⟨usage, _, understood, longer, ?_⟩
  rcases Plan.ofChain_eq_ok ofChain with ⟨subjectEq, stepsEq, -⟩
  rcases Vocabulary.usage_eq_ok understood with ⟨written, -⟩
  split
  · rename_i hasFragment
    rw [if_pos hasFragment] at subjectEq
    simp only [Usage.subject, subjectEq]
  · rename_i noFragment
    rw [if_neg noFragment] at subjectEq
    rw [Bool.not_eq_true] at noFragment
    refine ⟨usage.chain.flatMap Variant.suffix, ?_, ?_⟩ <;>
    · simp only [Plan.selector, stepsEq, Plan.foldl_apply_eq_append noFragment, Usage.subject,
        subjectEq, written]
      rfl

theorem compile_append_separator_of_error {candidate : Text} {refusal : Refusal}
    (refused : (ofSettings settings).compile candidate = .error refusal) :
    (ofSettings settings).compile (segment ++ ':' :: candidate) =
      .error (refusal.widened candidate (segment ++ ':' :: candidate)) := by
  cases understood : (ofSettings settings).vocabulary.usage candidate with
  | error other =>
      rw [compile_of_usage_error understood] at refused
      cases refused
      have longer := Vocabulary.usage_append_separator whole read candidate
      rw [understood] at longer
      exact compile_of_usage_error longer
  | ok usage =>
      rw [compile_append_separator_of_usage whole read wraps understood]
      rw [compile_of_usage understood] at refused
      cases declared : settings.declarations? usage.base with
      | none =>
          simp only [declared, Except.error.injEq] at refused
          subst refused
          rcases Vocabulary.usage_eq_ok understood with ⟨-, split, splits, hasBase, -⟩
          have lacksBase : Candidate.lacksBase candidate = false := by
            simpa [Candidate.lacksBase, splits] using hasBase
          simp [Refusal.widened, lacksBase]
      | some declarations =>
          cases ofChain : Plan.ofChain usage.chain with
          | error other =>
              simp only [declared, ofChain, Except.map, Except.error.injEq] at refused
              subst refused
              rcases Plan.exists_eq_of_ofChain_error ofChain with ⟨misplaced, rfl⟩
              rfl
          | ok plan => simp [declared, ofChain, Except.map] at refused

end Wrapped

/-- A wrapping variant in front of a candidate puts its at-rule around the rule and changes nothing
else but the class, and it neither adds nor removes a refusal. -/
theorem compile_wrapped (settings : Settings) {segment : Text} {variant : Variant}
    (whole : Candidate.isSealed segment = true)
    (read : (ofSettings settings).vocabulary.variant? segment = some variant)
    (wraps : variant.kind.isAtRule = true) (candidate : Text) :
    ∃ atRule, variant.atRule? = some atRule ∧
      (∀ rule, (ofSettings settings).compile candidate = .ok rule →
        ∃ usage selector, (ofSettings settings).vocabulary.usage candidate = .ok usage ∧
          (ofSettings settings).compile (segment ++ ':' :: candidate) =
            .ok ⟨selector, atRule :: rule.atRules, rule.declarations⟩ ∧
          if Plan.hasFragment usage.chain then selector = rule.selector
          else ∃ suffix, rule.selector = '.' :: Identifier.encode candidate ++ suffix ∧
            selector = '.' :: Identifier.encode (segment ++ ':' :: candidate) ++ suffix) ∧
      ∀ refusal, (ofSettings settings).compile candidate = .error refusal →
        (ofSettings settings).compile (segment ++ ':' :: candidate) =
          .error (refusal.widened candidate (segment ++ ':' :: candidate)) := by
  rcases Variant.exists_atRule?_of_isAtRule wraps with ⟨atRule, atRuleEq⟩
  refine ⟨atRule, atRuleEq, ?_, ?_⟩
  · intro rule compiled
    exact compile_append_separator_of_ok whole read atRuleEq compiled
  · intro refusal refused
    exact compile_append_separator_of_error whole read atRuleEq refused

/-- A condition in front of a class that is renamed, of a fragment that keeps its class, and of a
candidate without a base. -/
theorem compile_wrapped_supports :
    (ofSettings .standard).compile "supports-[display:grid]:hover:flex" =
      .ok ⟨".supports-\\[display\\:grid\\]\\:hover\\:flex:hover",
        [⟨.supports, "(display:grid)"⟩], [⟨"display", "flex"⟩]⟩ ∧
    (ofSettings .standard).compile "supports-[display:grid]:[&>p]:flex" =
      .ok ⟨".flex > p", [⟨.supports, "(display:grid)"⟩], [⟨"display", "flex"⟩]⟩ ∧
    (ofSettings .standard).compile "supports-[display:grid]:hover:" =
      .error (.unknownUtility "supports-[display:grid]:hover:") := by
  have wrapped := fun candidate => @compile_wrapped .standard "supports-[display:grid]"
    ⟨.supports, "supports-[display:grid]", "display:grid"⟩ (by decide) rfl rfl candidate
  refine ⟨?_, ?_, ?_⟩
  · rcases wrapped "hover:flex" with ⟨atRule, atRuleEq, kept, -⟩
    cases atRuleEq
    rcases kept ⟨".hover\\:flex:hover", [], [⟨"display", "flex"⟩]⟩ rfl with
      ⟨usage, selector, understood, compiled, renamed⟩
    cases understood
    rcases renamed with ⟨suffix, before, after⟩
    change (".hover\\:flex" : Text) ++ ":hover" = ".hover\\:flex" ++ suffix at before
    have suffixEq := List.append_cancel_left before
    subst suffixEq after
    exact compiled
  · rcases wrapped "[&>p]:flex" with ⟨atRule, atRuleEq, kept, -⟩
    cases atRuleEq
    rcases kept ⟨".flex > p", [], [⟨"display", "flex"⟩]⟩ rfl with
      ⟨usage, selector, understood, compiled, same⟩
    cases understood
    cases same
    exact compiled
  · rcases wrapped "hover:" with ⟨-, -, -, kept⟩
    exact kept (.unknownUtility "hover:") rfl

end Compiler

end AtomicCss
