import AtomicCss.Proofs.Bracket.Reading
import AtomicCss.Proofs.Text.Characters
import AtomicCss.Proofs.Variant.Leads
import AtomicCss.Rule.Plan

/-!
# Feature queries without brackets

A feature query is written with its condition in brackets or, for short, with a bare name. What
stands in brackets is unescaped and trimmed, whereas the bare name is taken as it is. Unescaping and
trimming leave names alone that hold no underscore, so for these the two forms say the same, as long
as neither of them is the name of a screen.
-/

namespace AtomicCss

/-- Whether a segment is read as a feature query with this parameter, and alone in a chain puts just
that condition around its rule. -/
structure Vocabulary.ReadsSupports (vocabulary : Vocabulary) (segment parameter : Text) : Prop where
  reads : vocabulary.variant? segment = some ⟨.supports, segment, parameter⟩
  wraps : (vocabulary.chain [segment]).bind Plan.ofChain =
    .ok ⟨.candidate, [], [⟨.supports, '(' :: parameter ++ [')']⟩]⟩

namespace Vocabulary

variable {vocabulary : Vocabulary}

theorem readsSupports_of_supportsCondition? {segment parameter : Text}
    (notScreen : vocabulary.screens.lookup segment = none)
    (found : Matcher.supportsCondition? segment = some parameter) :
    vocabulary.ReadsSupports segment parameter := by
  have readsHere : Matcher.supports.variant? vocabulary.screens segment =
      some ⟨.supports, segment, parameter⟩ := by
    rw [Matcher.variant?, Matcher.reading?, found]
    rfl
  have reads := variant?_eq_of_reads notScreen readsHere
  refine ⟨reads, ?_⟩
  rw [chain_cons, reads]
  rfl

section Name

variable {name : Text} (nonempty : name ≠ []) (nameChars : ∀ char ∈ name, isNameChar char = true)

include nonempty nameChars

theorem supportsCondition?_bare : Matcher.supportsCondition? ("supports-" ++ name) = some name := by
  have rest : Text.after? ("supports-" ++ name) "supports-" = some name :=
    Text.after?_eq_some_iff.mpr rfl
  have notBracketed : ¬['['] <+: name := by
    rintro ⟨inside, rfl⟩
    exact absurd (nameChars '[' List.mem_cons_self) (by decide)
  have isName : Attribute.isName name = true := by
    simp [Attribute.isName, nonempty, List.all_eq_true.mpr nameChars]
  rw [Matcher.supportsCondition?, rest]
  simp only [Bracket.inner?_eq_none notBracketed, isName, if_true]

theorem supportsCondition?_bracketed (noUnderscore : '_' ∉ name) :
    Matcher.supportsCondition? ("supports-[" ++ name ++ [']']) = some name := by
  have rest : Text.after? ("supports-[" ++ name ++ [']']) "supports-" =
      some ('[' :: name ++ [']']) :=
    Text.after?_eq_some_iff.mpr rfl
  have inside : Bracket.inner? ('[' :: name ++ [']']) = some name :=
    Bracket.inner?_eq_some_iff.mpr rfl
  have unescaped : Bracket.unescape name = name := by
    apply Bracket.unescape_eq_self
    intro char member
    have nameChar := nameChars char member
    refine ⟨ne_of_isNameChar nameChar rfl, ?_⟩
    simp only [Bracket.isEscapable, Bool.or_eq_false_iff, decide_eq_false_iff_not]
    refine ⟨⟨?_, ne_of_isNameChar nameChar rfl⟩, ne_of_isNameChar nameChar rfl⟩
    rintro rfl
    exact noUnderscore member
  have trimmed : Text.IsTrimmed name := by
    constructor
    · intro char first
      exact isBlank_eq_false_of_isNameChar (nameChars char (List.mem_of_head? first))
    · intro char last
      exact isBlank_eq_false_of_isNameChar (nameChars char (List.mem_of_getLast? last))
  rw [Matcher.supportsCondition?, rest]
  simp only [inside, Bracket.filled?, unescaped, trimmed.trim_eq]
  simp [nonempty]

end Name

/-- A bare name stands for itself, unless a screen is named like the segment. In brackets it stands
for itself as well if it holds no underscore, so that either form puts the same condition around a
rule. -/
theorem readsSupports_name {name : Text} (nonempty : name ≠ [])
    (nameChars : ∀ char ∈ name, isNameChar char = true)
    (notScreen : vocabulary.screens.lookup ("supports-" ++ name) = none) :
    vocabulary.ReadsSupports ("supports-" ++ name) name ∧
    ('_' ∉ name → vocabulary.screens.lookup ("supports-[" ++ name ++ [']']) = none →
      vocabulary.ReadsSupports ("supports-[" ++ name ++ [']']) name) := by
  constructor
  · exact readsSupports_of_supportsCondition? notScreen (supportsCondition?_bare nonempty nameChars)
  · intro noUnderscore bracketNotScreen
    exact readsSupports_of_supportsCondition? bracketNotScreen
      (supportsCondition?_bracketed nonempty nameChars noUnderscore)

theorem readsSupports_name_backdropFilter :
    ReadsSupports ⟨[("supports-grid", "1px")]⟩ "supports-backdrop-filter" "backdrop-filter" ∧
    ReadsSupports ⟨[("supports-grid", "1px")]⟩ "supports-[backdrop-filter]" "backdrop-filter" := by
  have both := @readsSupports_name ⟨[("supports-grid", "1px")]⟩ "backdrop-filter" (by decide)
    (List.all_eq_true.mp rfl) (by decide)
  exact ⟨both.1, both.2 (by decide) (by decide)⟩

/-- A screen may have the name of the bare form, and an underscore in brackets is a space. -/
theorem not_readsSupports_alike :
    (¬∃ parameter, ReadsSupports ⟨[("supports-grid", "1px")]⟩ "supports-grid" parameter ∧
      ReadsSupports ⟨[("supports-grid", "1px")]⟩ "supports-[grid]" parameter) ∧
    ¬∃ parameter, ReadsSupports ⟨[]⟩ "supports-a_b" parameter ∧
      ReadsSupports ⟨[]⟩ "supports-[a_b]" parameter := by
  have asScreen : Vocabulary.variant? ⟨[("supports-grid", "1px")]⟩ "supports-grid" =
      some ⟨.responsive, "supports-grid", "1px"⟩ := by decide +kernel
  have asWritten : Vocabulary.variant? ⟨[]⟩ "supports-a_b" =
      some ⟨.supports, "supports-a_b", "a_b"⟩ := by decide +kernel
  have asSpace : Vocabulary.variant? ⟨[]⟩ "supports-[a_b]" =
      some ⟨.supports, "supports-[a_b]", "a b"⟩ := by decide +kernel
  constructor
  · rintro ⟨parameter, bare, -⟩
    have same := asScreen.symm.trans bare.reads
    cases same
  · rintro ⟨parameter, bare, bracketed⟩
    have bareParameter := asWritten.symm.trans bare.reads
    have bracketParameter := asSpace.symm.trans bracketed.reads
    simp only [Option.some.injEq, Variant.mk.injEq, true_and] at bareParameter bracketParameter
    rw [← bareParameter] at bracketParameter
    exact absurd bracketParameter (by decide)

end Vocabulary

end AtomicCss
