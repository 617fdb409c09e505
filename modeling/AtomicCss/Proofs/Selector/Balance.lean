import AtomicCss.Proofs.Candidate.Balance
import AtomicCss.Proofs.Selector.Containment

/-!
# Balanced selectors

Whether the groups of a rule's selector are balanced is decided by the variants alone, as it is for
containment: the class has no group marks that are live.

A chain of whole parameters has a balanced outline. Named variants and attribute clauses that are
written without a backslash have whole parameters. A fragment is taken from between the first and
the last character of its segment, and although the segment is balanced, those two brackets need not
belong together; where they do and no backslash is written, the fragment is whole.
-/

namespace AtomicCss

theorem Bracket.isWhole_of_content {inside fragment : Text} (noBackslash : '\\' ∉ inside)
    (whole : inside.IsWhole) (holds : content inside = .fragment fragment) : fragment.IsWhole := by
  refine ⟨isClosed_of_content noBackslash whole.closed holds, ?_⟩
  have spaced : (Fragment.spaceCombinators (unescape inside).trim).groupMarks =
      (unescape inside).trim.groupMarks :=
    congrArg Prod.snd (Fragment.scan_spaceCombinators rfl (unescape inside).trim)
  have trimmed : (unescape inside).trim.groupMarks = (unescape inside).groupMarks :=
    Text.marks_trim isPunctuation_isGroupMark (unescape inside)
  have unescaped : (unescape inside).groupMarks = inside.groupMarks :=
    congrArg Prod.snd (scanAlike_unescape isPunctuation_isGroupMark noBackslash .outside rfl)
  rw [content_eq_fragment holds, Text.isBalanced_iff, spaced, trimmed, unescaped]
  exact Text.isBalanced_iff.mp whole.balanced

namespace Variant

theorem isWhole_of_mem_named {word parameter : Text} {kind : Kind}
    (listed : (word, kind, parameter) ∈ named) : parameter.IsWhole := by
  have all : ∀ entry ∈ named, entry.2.2.IsWhole := by decide +kernel
  exact all _ listed

theorem SelectorForm.isWhole {segment parameter : Text} {kind : Kind}
    (form : SelectorForm segment kind parameter) (whole : Candidate.isSealed segment = true)
    (noBackslash : '\\' ∉ segment) (paired : Bracket.IsPaired segment) : parameter.IsWhole := by
  have clear {family : Text} (belongs : kind.family? = some family) : parameter.IsWhole :=
    (form.isClear isPunctuation_isGroupMark belongs noBackslash).isWhole
  cases form with
  | word listed => exact isWhole_of_mem_named listed
  | state known => exact clear rfl
  | clause belongs => exact clear belongs
  | @fragment inside _ written holds =>
      have insidePaired := paired inside (Bracket.inner?_eq_some_iff.mpr written)
      subst written
      simp only [List.mem_append, List.mem_cons, not_or] at noBackslash
      have insideWhole := Candidate.isWhole_inside noBackslash.1.2 whole insidePaired
      exact Bracket.isWhole_of_content noBackslash.1.2 insideWhole holds

end Variant

theorem Fragment.isWhole_fill {fragment selector : Text} (fragmentWhole : fragment.IsWhole)
    (selectorWhole : selector.IsWhole) : (fill fragment selector).IsWhole := by
  refine ⟨isClosed_fill fragmentWhole.closed selectorWhole.closed, ?_⟩
  rw [Text.isBalanced_iff]
  exact marks_fillFrom Nested Nested.insert rfl selectorWhole.closed
    (Text.isBalanced_iff.mp selectorWhole.balanced) .outside [] fragment
    (Text.isBalanced_iff.mp fragmentWhole.balanced)

namespace Plan

theorem isWhole_apply {variant : Variant} {step : Step} (stepEq : variant.step? = some step)
    (whole : variant.parameter.IsWhole) {selector : Text} (selectorWhole : selector.IsWhole) :
    (step.apply selector).IsWhole := by
  rcases (Variant.step?_eq_some stepEq).2 with rfl | rfl | rfl
  · exact selectorWhole.append whole
  · exact selectorWhole.append whole.bracketed
  · exact Fragment.isWhole_fill whole selectorWhole

theorem isWhole_outline {chain : List Variant}
    (whole : ∀ variant ∈ chain, variant.kind.isAtRule = false → variant.parameter.IsWhole) :
    (outline chain).IsWhole := by
  apply foldl_apply_preserves Text.IsWhole ?_ (by decide)
  intro variant member step stepEq selector selectorWhole
  have selects := (Variant.step?_eq_some stepEq).1
  exact isWhole_apply stepEq (whole variant member selects) selectorWhole

end Plan

namespace Compiler

variable {settings : Settings} {candidate : Text} {usage : Usage}

/-- Among the variants of a candidate, only one that is written with a backslash or between brackets
that do not belong together can have a parameter that is not whole. -/
theorem isWhole_of_mem_chain
    (understood : (ofSettings settings).vocabulary.usage candidate = .ok usage)
    {variant : Variant} (member : variant ∈ usage.chain)
    (selects : variant.kind.isAtRule = false) (noBackslash : '\\' ∉ variant.written)
    (paired : Bracket.IsPaired variant.written) : variant.parameter.IsWhole := by
  rcases selectorForm_of_mem_chain understood member selects with ⟨whole, form⟩
  exact form.isWhole whole noBackslash paired

/-- Every reader scans the selector of a rule like the outline of the chain. -/
theorem scanAlike_outline {mark : Char → Bool} (punctuation : IsPunctuation mark)
    (understood : (ofSettings settings).vocabulary.usage candidate = .ok usage)
    {rule : Rule} (compiled : (ofSettings settings).compile candidate = .ok rule) :
    Text.ScanAlike mark rule.selector (Plan.outline usage.chain) := by
  rcases compile_eq_ok compiled with
    ⟨other, plan, declarations, otherUnderstood, -, planned, rfl⟩
  rw [understood] at otherUnderstood
  cases otherUnderstood
  have subjectAlike : Text.ScanAlike mark (usage.subject plan) ['.'] := by
    rw [Usage.subject]
    split
    · exact Identifier.scanAlike_classSelector punctuation usage.written
    · exact Identifier.scanAlike_classSelector punctuation usage.base
  rw [Plan.selector, (Plan.ofChain_eq_ok planned).2.1]
  exact Plan.foldl_apply_congr .refl .append subjectAlike _

/-- The groups of a selector are balanced exactly when those of the outline of the chain are,
whatever the candidate and its base are called. For that it is enough that the parameters of those
selector variants are whole that are written with a backslash or between brackets that do not belong
together. -/
theorem selector_isBalanced_iff
    (understood : (ofSettings settings).vocabulary.usage candidate = .ok usage)
    {rule : Rule} (compiled : (ofSettings settings).compile candidate = .ok rule) :
    (rule.selector.IsBalanced ↔ (Plan.outline usage.chain).IsBalanced) ∧
    ((∀ variant ∈ usage.chain, variant.kind.isAtRule = false →
        '\\' ∈ variant.written ∨ ¬ Bracket.IsPaired variant.written →
          variant.parameter.IsWhole) →
      rule.selector.IsBalanced) := by
  have alike := scanAlike_outline isPunctuation_isGroupMark understood compiled
  refine ⟨alike.isBalanced_iff, ?_⟩
  intro whole
  apply alike.isBalanced_iff.mpr
  apply (Plan.isWhole_outline ?_).balanced
  intro variant member selects
  by_cases suspect : '\\' ∈ variant.written ∨ ¬ Bracket.IsPaired variant.written
  · exact whole variant member selects suspect
  · rw [not_or, not_not] at suspect
    exact isWhole_of_mem_chain understood member selects suspect.1 suspect.2

/-- Groups in groups, and an escaped slash. -/
theorem selector_isBalanced_nestedGroups :
    (ofSettings .standard).compile "[&:not([open])]:[&_.w-1\\/2]:flex" =
      .ok ⟨".flex:not([open]) .w-1\\/2", [], [⟨"display", "flex"⟩]⟩ ∧
    Text.IsBalanced ".flex:not([open]) .w-1\\/2" ∧
    (Plan.outline [⟨.arbitrarySelector, "[&:not([open])]", "&:not([open])"⟩,
      ⟨.arbitrarySelector, "[&_.w-1\\/2]", "& .w-1\\/2"⟩]).IsBalanced := by
  have understood : (ofSettings .standard).vocabulary.usage "[&:not([open])]:[&_.w-1\\/2]:flex" =
      .ok ⟨"[&:not([open])]:[&_.w-1\\/2]:flex",
        [⟨.arbitrarySelector, "[&:not([open])]", "&:not([open])"⟩,
          ⟨.arbitrarySelector, "[&_.w-1\\/2]", "& .w-1\\/2"⟩], "flex"⟩ := rfl
  have compiled : (ofSettings .standard).compile "[&:not([open])]:[&_.w-1\\/2]:flex" =
      .ok ⟨".flex:not([open]) .w-1\\/2", [], [⟨"display", "flex"⟩]⟩ := rfl
  have whole : ∀ variant ∈ [⟨.arbitrarySelector, "[&:not([open])]", "&:not([open])"⟩,
      (⟨.arbitrarySelector, "[&_.w-1\\/2]", "& .w-1\\/2"⟩ : Variant)],
        variant.parameter.IsWhole := by decide
  rcases selector_isBalanced_iff understood compiled with ⟨sameAsOutline, ofParameters⟩
  have balanced := ofParameters (fun variant member _ _ => whole variant member)
  exact ⟨compiled, balanced, sameAsOutline.mp balanced⟩

/-- The first bracket of this segment is closed in its middle, and the last one closes another; what
is taken from between them closes a group that it has not opened and opens one that it does not
close. -/
theorem selector_not_isBalanced_twoBrackets :
    (ofSettings .standard).compile "[&]x[]:flex" = .ok ⟨".flex]x[", [], [⟨"display", "flex"⟩]⟩ ∧
    ¬ Text.IsBalanced ".flex]x[" :=
  ⟨rfl, by decide⟩

end Compiler

end AtomicCss
