import AtomicCss.Proofs.Compiler.Stages
import AtomicCss.Proofs.Identifier.Reading
import AtomicCss.Proofs.Rule.Frame
import AtomicCss.Proofs.Rule.Plan
import AtomicCss.Proofs.Selector.Parameters

/-!
# Contained selectors

Whether the selector of a rule can disturb the block after it is decided by the variants alone: an
encoded class name is passed unnoticed in every state in which a class can stand, so the selector
is contained exactly when the outline of its chain is, in which a dot stands for the class.

A chain of contained parameters has a contained outline. A parameter written without a backslash is
contained, so only the variants that are written with one have to be looked at.
-/

namespace AtomicCss

theorem Identifier.passAlike_classSelector (name : Text) :
    Text.PassAlike (classSelector name) ['.'] :=
  (scanAlike_classSelector isPunctuation_isBlockPunctuation name).passAlike

namespace Plan

/-- The selector that a chain builds, with a dot in place of the class. -/
def outline (chain : List Variant) : Text :=
  (chain.filterMap Variant.step?).foldl Step.apply ['.']

theorem passAlike_foldl {left right : Text} (alike : Text.PassAlike left right)
    (steps : List Step) :
    Text.PassAlike (steps.foldl Step.apply left) (steps.foldl Step.apply right) :=
  foldl_apply_congr .refl .append alike steps

theorem isContained_apply {variant : Variant} {step : Step} (stepEq : variant.step? = some step)
    (contained : variant.parameter.isContained = true) {selector : Text}
    (selectorContained : selector.isContained = true) :
    (step.apply selector).isContained = true := by
  rcases (Variant.step?_eq_some stepEq).2 with rfl | rfl | rfl
  · exact Text.isContained_append selectorContained contained
  · have opens : Text.isContained ['['] = true := rfl
    have closes : Text.isContained [']'] = true := rfl
    have clause := Text.isContained_append (Text.isContained_append opens contained) closes
    exact Text.isContained_append selectorContained clause
  · exact Fragment.isContained_fill contained selectorContained

theorem isContained_foldl {chain : List Variant}
    (contained : ∀ variant ∈ chain, variant.kind.isAtRule = false →
      variant.parameter.isContained = true)
    {selector : Text} (selectorContained : selector.isContained = true) :
    ((chain.filterMap Variant.step?).foldl Step.apply selector).isContained = true := by
  apply foldl_apply_preserves (·.isContained = true) ?_ selectorContained
  intro variant member step stepEq selector selectorContained
  have selects := (Variant.step?_eq_some stepEq).1
  exact isContained_apply stepEq (contained variant member selects) selectorContained

end Plan

namespace Compiler

variable {settings : Settings} {candidate : Text} {usage : Usage}

/-- Every selector variant of a candidate is written as a whole segment, in one of the forms. -/
theorem selectorForm_of_mem_chain
    (understood : (ofSettings settings).vocabulary.usage candidate = .ok usage)
    {variant : Variant} (member : variant ∈ usage.chain)
    (selects : variant.kind.isAtRule = false) :
    Candidate.isSealed variant.written = true ∧
      Variant.SelectorForm variant.written variant.kind variant.parameter := by
  rcases Vocabulary.usage_eq_ok understood with ⟨-, split, splits, -, -, chained⟩
  rcases Vocabulary.exists_mem_of_mem_chain chained member with ⟨segment, segmentMem, found⟩
  have joined := Candidate.split_eq_ok_iff_joined.mp splits
  have allSealed := (Candidate.joined_top_iff.mp joined).1
  rw [(Vocabulary.variant?_eq_some found).1]
  exact ⟨allSealed segment segmentMem, Vocabulary.selectorForm_of_variant? found selects⟩

/-- Among the variants of a candidate, only one that is written with a backslash can have a
parameter that is not contained. -/
theorem isContained_of_mem_chain
    (understood : (ofSettings settings).vocabulary.usage candidate = .ok usage)
    {variant : Variant} (member : variant ∈ usage.chain)
    (selects : variant.kind.isAtRule = false) (noBackslash : '\\' ∉ variant.written) :
    variant.parameter.isContained = true := by
  rcases selectorForm_of_mem_chain understood member selects with ⟨whole, form⟩
  exact form.isContained whole noBackslash

/-- The selector of a rule is contained exactly when the outline of the chain is, whatever the
candidate and its base are called. For that it is enough that the parameters of those selector
variants are contained that are written with a backslash. -/
theorem selector_isContained_iff
    (understood : (ofSettings settings).vocabulary.usage candidate = .ok usage)
    {rule : Rule} (compiled : (ofSettings settings).compile candidate = .ok rule) :
    (rule.selector.isContained = true ↔ (Plan.outline usage.chain).isContained = true) ∧
    ((∀ variant ∈ usage.chain, variant.kind.isAtRule = false → '\\' ∈ variant.written →
        variant.parameter.isContained = true) →
      rule.selector.isContained = true) := by
  rcases compile_eq_ok compiled with
    ⟨other, plan, declarations, otherUnderstood, -, planned, rfl⟩
  rw [understood] at otherUnderstood
  cases otherUnderstood
  rcases Plan.ofChain_eq_ok planned with ⟨-, stepsEq, -⟩
  have subjectAlike : Text.PassAlike (usage.subject plan) ['.'] := by
    rw [Usage.subject]
    split
    · exact Identifier.passAlike_classSelector usage.written
    · exact Identifier.passAlike_classSelector usage.base
  have alike : Text.PassAlike (plan.selector (usage.subject plan)) (Plan.outline usage.chain) := by
    rw [Plan.selector, stepsEq, Plan.outline]
    exact Plan.passAlike_foldl subjectAlike _
  rw [alike.isContained_eq]
  refine ⟨.rfl, ?_⟩
  intro contained
  apply Plan.isContained_foldl ?_ rfl
  intro variant member selects
  by_cases backslash : '\\' ∈ variant.written
  · exact contained variant member selects backslash
  · exact isContained_of_mem_chain understood member selects backslash

/-- An escaped slash in a fragment, and a brace in a string. -/
theorem selector_isContained_escapedSlash :
    (ofSettings .standard).compile "[&_.w-1\\/2]:[&[title=\"\x7b\"]]:flex" =
      .ok ⟨".flex .w-1\\/2[title=\"\x7b\"]", [], [⟨"display", "flex"⟩]⟩ ∧
    Text.isContained ".flex .w-1\\/2[title=\"\x7b\"]" = true ∧
    (Plan.outline [⟨.arbitrarySelector, "[&_.w-1\\/2]", "& .w-1\\/2"⟩,
      ⟨.arbitrarySelector, "[&[title=\"\x7b\"]]", "&[title=\"\x7b\"]"⟩]).isContained = true := by
  have understood : (ofSettings .standard).vocabulary.usage
      "[&_.w-1\\/2]:[&[title=\"\x7b\"]]:flex" =
        .ok ⟨"[&_.w-1\\/2]:[&[title=\"\x7b\"]]:flex",
          [⟨.arbitrarySelector, "[&_.w-1\\/2]", "& .w-1\\/2"⟩,
            ⟨.arbitrarySelector, "[&[title=\"\x7b\"]]", "&[title=\"\x7b\"]"⟩], "flex"⟩ := rfl
  have compiled : (ofSettings .standard).compile "[&_.w-1\\/2]:[&[title=\"\x7b\"]]:flex" =
      .ok ⟨".flex .w-1\\/2[title=\"\x7b\"]", [], [⟨"display", "flex"⟩]⟩ := rfl
  rcases selector_isContained_iff understood compiled with ⟨sameAsOutline, ofParameters⟩
  have contained := ofParameters (by decide)
  exact ⟨compiled, contained, sameAsOutline.mp contained⟩

/-- A quote that the author has escaped takes a second backslash in the literal, which ends there:
the braces of this value are live, and a string is left open at the end of the selector. -/
theorem selector_not_isContained_escapedQuote :
    (ofSettings .standard).compile "data-[x=\\\"\x7b\x7d]:flex" =
      .ok ⟨".data-\\[x\\=\\\\\\\"\\\x7b\\\x7d\\]\\:flex[data-x=\"\\\\\"\x7b\x7d\"]", [],
        [⟨"display", "flex"⟩]⟩ ∧
    Text.isContained
      ".data-\\[x\\=\\\\\\\"\\\x7b\\\x7d\\]\\:flex[data-x=\"\\\\\"\x7b\x7d\"]" = false :=
  ⟨rfl, rfl⟩

end Compiler

end AtomicCss
