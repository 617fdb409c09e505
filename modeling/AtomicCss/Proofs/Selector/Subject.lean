import AtomicCss.Proofs.Rule.Frame
import AtomicCss.Proofs.Rule.Plan
import AtomicCss.Proofs.Variant.Forms

/-!
# The subject of a selector

The steps of a plan never look at the selector that they are applied to, so what a plan makes of a
class consists of texts that the steps fix and of copies of the class between them. None of the
steps of a chain that has been looked up drops the class: a suffix keeps it, and a fragment is only
accepted if it has a slot left after it has been unescaped, trimmed and spaced.
-/

namespace AtomicCss

namespace Fragment

theorem hasSlot_of_isSpliceable {fragment : Text} (spliceable : isSpliceable fragment = true) :
    hasSlot fragment = true := by
  simp only [isSpliceable, Bool.and_eq_true] at spliceable
  exact spliceable.1.1

theorem count_slot_pos_of_hasSlot {fragment : Text} (slotted : hasSlot fragment = true) :
    0 < fragment.live.count slot := by
  rw [hasSlot, List.contains_iff_mem] at slotted
  exact List.count_pos_iff.mpr slotted

end Fragment

namespace Variant

/-- No word of the vocabulary stands for a fragment. -/
theorem kind_ne_arbitrarySelector_of_mem_named {word parameter : Text} {kind : Kind}
    (listed : (word, kind, parameter) ∈ named) : kind ≠ .arbitrarySelector := by
  have all : named.all (fun entry => entry.2.1 ≠ .arbitrarySelector) = true := by decide +kernel
  simpa using List.all_eq_true.mp all _ listed

theorem SelectorForm.isSpliceable {segment fragment : Text}
    (form : SelectorForm segment .arbitrarySelector fragment) :
    Fragment.isSpliceable fragment = true := by
  cases form with
  | word listed => exact absurd rfl (kind_ne_arbitrarySelector_of_mem_named listed)
  | clause belongs => cases belongs
  | fragment _ _ spliceable => exact spliceable

end Variant

namespace Vocabulary

variable {vocabulary : Vocabulary}

/-- The step of a variant that has been looked up writes the selector at least once. -/
theorem copies_pos_of_variant? {segment : Text} {variant : Variant} {step : Step}
    (found : vocabulary.variant? segment = some variant) (stepEq : variant.step? = some step) :
    0 < step.copies := by
  cases step with
  | append suffix => exact Nat.one_pos
  | fill fragment =>
      have isFragment : variant.kind = .arbitrarySelector ∧ variant.parameter = fragment := by
        simp only [Variant.step?] at stepEq
        cases kindEq : variant.kind <;> simp_all
      have form := selectorForm_of_variant? found (by rw [isFragment.1]; rfl)
      rw [isFragment.1, isFragment.2] at form
      exact Fragment.count_slot_pos_of_hasSlot
        (Fragment.hasSlot_of_isSpliceable form.isSpliceable)

theorem copies_pos_of_chain {segments : List Text} {chain : List Variant} {plan : Plan}
    (understood : vocabulary.chain segments = .ok chain) (planned : Plan.ofChain chain = .ok plan) :
    0 < plan.copies := by
  rw [Plan.copies, (Plan.ofChain_eq_ok planned).2.1, List.prod_pos_iff_forall_pos_nat]
  intro count member
  rcases List.mem_map.mp member with ⟨step, stepMem, rfl⟩
  rcases List.mem_filterMap.mp stepMem with ⟨variant, variantMem, stepEq⟩
  rcases exists_mem_of_mem_chain understood variantMem with ⟨segment, -, found⟩
  exact copies_pos_of_variant? found stepEq

end Vocabulary

namespace Plan

/-- What a plan makes of a selector alternates between copies of it and texts that depend on the
steps alone. A plan for a chain that has been looked up makes at least one copy. -/
theorem selector_eq_intercalate (plan : Plan) :
    (∃ texts : List Text, texts.length = plan.copies + 1 ∧
      ∀ other : Plan, other.steps = plan.steps →
        ∀ initial : Text, other.selector initial = initial.intercalate texts) ∧
    ∀ (vocabulary : Vocabulary) (segments : List Text) (chain : List Variant),
      vocabulary.chain segments = .ok chain → ofChain chain = .ok plan → 1 ≤ plan.copies := by
  refine ⟨⟨plan.frame.before :: plan.frame.after, ?_, ?_⟩, ?_⟩
  · rw [List.length_cons, Frame.length_after, holes_frame]
  · intro other sameSteps initial
    have sameSelector : other.selector initial = plan.selector initial := by
      rw [selector, selector, sameSteps]
    rw [sameSelector, selector_eq_fill, Frame.fill_eq_intercalate]
  · intro vocabulary segments chain understood planned
    exact Vocabulary.copies_pos_of_chain understood planned

/-- Two fragments with two slots each make four copies of the class. -/
theorem selector_eq_intercalate_twoFragments :
    (∃ texts : List Text, texts.length = 5 ∧
      ∀ initial : Text, selector ⟨.base, [.fill "& .on,&", .fill "& > &"], []⟩ initial =
        initial.intercalate texts) ∧
    Vocabulary.chain ⟨[]⟩ ["[&_.on,&]", "[&>&]"] =
      .ok [⟨.arbitrarySelector, "[&_.on,&]", "& .on,&"⟩,
        ⟨.arbitrarySelector, "[&>&]", "& > &"⟩] ∧
    1 ≤ copies ⟨.base, [.fill "& .on,&", .fill "& > &"], []⟩ := by
  rcases selector_eq_intercalate ⟨.base, [.fill "& .on,&", .fill "& > &"], []⟩ with
    ⟨⟨texts, count, alternates⟩, keeps⟩
  have understood : Vocabulary.chain ⟨[]⟩ ["[&_.on,&]", "[&>&]"] =
      .ok [⟨.arbitrarySelector, "[&_.on,&]", "& .on,&"⟩,
        ⟨.arbitrarySelector, "[&>&]", "& > &"⟩] := rfl
  exact ⟨⟨texts, count, alternates _ rfl⟩, understood, keeps _ _ _ understood rfl⟩

end Plan

end AtomicCss
