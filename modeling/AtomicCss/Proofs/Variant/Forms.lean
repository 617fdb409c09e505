import AtomicCss.Proofs.Bracket.Reading
import AtomicCss.Vocabulary

/-!
# The forms of selector variants

A variant that changes the selector was written in one of four forms: as a word of the vocabulary,
as a known state of `aria-`, with a clause in brackets after the name of its family, or as a
fragment in brackets. `SelectorForm` lists them with all that the matchers check, so that facts
about the parameters of variants follow by cases on it.
-/

namespace AtomicCss

namespace Variant

/-- The family of attributes that variants of a kind test. -/
def Kind.family? : Kind → Option Text
  | .aria => some "aria"
  | .data => some "data"
  | _ => none

/-- How a segment writes a selector variant with this kind and this parameter. -/
inductive SelectorForm (segment : Text) : Kind → Text → Prop
  | word {kind : Kind} {parameter : Text} (listed : (segment, kind, parameter) ∈ named) :
      SelectorForm segment kind parameter
  | state {state : Text} (known : state ∈ ariaStates) (written : segment = "aria-" ++ state) :
      SelectorForm segment .aria ("aria-" ++ state ++ "=\"true\"")
  | clause {kind : Kind} {family inside clause : Text} (belongs : kind.family? = some family)
      (written : segment = family ++ '-' :: '[' :: inside ++ [']'])
      (states : Attribute.clause? family inside = some clause) : SelectorForm segment kind clause
  | fragment {inside fragment : Text} (written : segment = '[' :: inside ++ [']'])
      (holds : Bracket.content inside = .fragment fragment)
      (spliceable : Fragment.isSpliceable fragment = true) :
      SelectorForm segment .arbitrarySelector fragment

end Variant

namespace Matcher

open Variant (SelectorForm)

theorem selectorForm_of_ariaClause? {segment clause : Text}
    (found : ariaClause? segment = some clause) : SelectorForm segment .aria clause := by
  simp only [ariaClause?] at found
  split at found
  · cases found
  · rename_i rest leads
    rw [Text.after?_eq_some_iff] at leads
    split at found
    · rename_i inside bracketed
      rw [Bracket.inner?_eq_some_iff] at bracketed
      exact .clause rfl (leads.trans (by rw [bracketed]; rfl)) found
    · split at found
      · rename_i known
        cases found
        exact .state (by simpa using known) leads
      · cases found

theorem selectorForm_of_dataClause? {segment clause : Text}
    (found : dataClause? segment = some clause) : SelectorForm segment .data clause := by
  simp only [dataClause?] at found
  split at found
  · cases found
  · rename_i rest leads
    rw [Text.after?_eq_some_iff] at leads
    rw [Option.bind_eq_some_iff] at found
    rcases found with ⟨inside, bracketed, states⟩
    rw [Bracket.inner?_eq_some_iff] at bracketed
    exact .clause rfl (leads.trans (by rw [bracketed]; rfl)) states

theorem selectorForm_of_fragment? {segment fragment : Text}
    (found : fragment? segment = some fragment) :
    SelectorForm segment .arbitrarySelector fragment := by
  simp only [fragment?] at found
  split at found
  · rename_i text holds
    split at found
    · rename_i spliceable
      cases found
      rw [Option.map_eq_some_iff] at holds
      rcases holds with ⟨inside, bracketed, holds⟩
      exact .fragment (Bracket.inner?_eq_some_iff.mp bracketed) holds spliceable
    · cases found
  · cases found

/-- Every matcher finds a variant that wraps the rule, or one of the four forms. -/
theorem selectorForm_of_reading? {screens : Dictionary Text} {matcher : Matcher} {segment : Text}
    {kind : Variant.Kind} {parameter : Text}
    (found : matcher.reading? screens segment = some (kind, parameter))
    (selects : kind.isAtRule = false) : SelectorForm segment kind parameter := by
  cases matcher with
  | named =>
      apply SelectorForm.word
      rw [reading?, List.lookup_eq_some_iff] at found
      rcases found with ⟨before, after, splits, -⟩
      simp [splits]
  | aria =>
      simp only [reading?, Option.map_eq_some_iff, Prod.mk.injEq] at found
      rcases found with ⟨clause, found, rfl, rfl⟩
      exact selectorForm_of_ariaClause? found
  | data =>
      simp only [reading?, Option.map_eq_some_iff, Prod.mk.injEq] at found
      rcases found with ⟨clause, found, rfl, rfl⟩
      exact selectorForm_of_dataClause? found
  | fragment =>
      simp only [reading?, Option.map_eq_some_iff, Prod.mk.injEq] at found
      rcases found with ⟨fragment, found, rfl, rfl⟩
      exact selectorForm_of_fragment? found
  | screen | supports | minWidth | maxWidth | query =>
      simp only [reading?, Option.map_eq_some_iff, Prod.mk.injEq] at found
      rcases found with ⟨text, -, rfl, -⟩
      cases selects

end Matcher

namespace Vocabulary

variable {vocabulary : Vocabulary}

theorem variant?_eq_some {segment : Text} {variant : Variant}
    (found : vocabulary.variant? segment = some variant) :
    variant.written = segment ∧
      ∃ matcher : Matcher,
        matcher.reading? vocabulary.screens segment = some (variant.kind, variant.parameter) := by
  rcases List.exists_of_findSome?_eq_some found with ⟨matcher, -, read⟩
  simp only [Matcher.variant?, Option.map_eq_some_iff] at read
  rcases read with ⟨⟨kind, parameter⟩, reads, rfl⟩
  exact ⟨rfl, matcher, reads⟩

theorem selectorForm_of_variant? {segment : Text} {variant : Variant}
    (found : vocabulary.variant? segment = some variant) (selects : variant.kind.isAtRule = false) :
    Variant.SelectorForm segment variant.kind variant.parameter := by
  rcases variant?_eq_some found with ⟨-, matcher, reads⟩
  exact Matcher.selectorForm_of_reading? reads selects

theorem chain_nil : vocabulary.chain [] = .ok [] := rfl

theorem chain_cons (segment : Text) (segments : List Text) :
    vocabulary.chain (segment :: segments) =
      match vocabulary.variant? segment with
      | none => .error (.unknownVariant segment)
      | some variant => (vocabulary.chain segments).map (variant :: ·) := by
  simp only [chain, List.mapM_cons, variant]
  cases vocabulary.variant? segment with
  | none => rfl
  | some variant => cases segments.mapM vocabulary.variant <;> rfl

/-- Every variant of a chain is what the vocabulary makes of one of the segments. -/
theorem exists_mem_of_mem_chain {segments : List Text} {chain : List Variant}
    (understood : vocabulary.chain segments = .ok chain) {variant : Variant}
    (member : variant ∈ chain) :
    ∃ segment ∈ segments, vocabulary.variant? segment = some variant := by
  induction segments generalizing chain with
  | nil =>
      rw [chain_nil] at understood
      cases understood
      cases member
  | cons segment segments ih =>
      rw [chain_cons] at understood
      cases read : vocabulary.variant? segment with
      | none => simp [read] at understood
      | some first =>
          cases others : vocabulary.chain segments with
          | error refusal => simp [read, others, Except.map] at understood
          | ok rest =>
              simp only [read, others, Except.map, Except.ok.injEq] at understood
              subst understood
              rcases List.mem_cons.mp member with rfl | member
              · exact ⟨segment, by simp, read⟩
              · rcases ih others member with ⟨other, otherMem, found⟩
                exact ⟨other, by simp [otherMem], found⟩

end Vocabulary

end AtomicCss
