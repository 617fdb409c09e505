import AtomicCss.Proofs.Fragment.Reading

/-!
# Filling filled fragments

Filling a fragment with a fragment gives a fragment again. As long as the inner one is closed, a
reader of the result stands outside all strings before and after each copy of it, so that it finds
the slots of every copy, and those alone: two fillings, one after the other, are one filling with
the composed fragment. The live characters of a filled fragment are its own, its slots apart, and
those of the selector once for each slot.
-/

namespace AtomicCss.Fragment

open Quoting Text

theorem fillFrom_append (state : Quoting) (selector left right : Text) :
    fillFrom state selector (left ++ right) =
      fillFrom state selector left ++ fillFrom (state.readAll left) selector right := by
  induction left generalizing state with
  | nil => rfl
  | cons char left ih =>
      simp only [List.cons_append, fillFrom, ih, readAll_cons]
      split
      · rw [List.append_assoc]
      · rfl

/-- The slots of a filled fragment are the slots of what it was filled with. -/
theorem fillFrom_fillFrom {inner : Text} (closed : inner.isClosed = true) (state : Quoting)
    (selector outer : Text) :
    fillFrom state selector (fillFrom state inner outer) =
      fillFrom state (fill inner selector) outer := by
  induction outer generalizing state with
  | nil => rfl
  | cons char rest ih =>
      by_cases filled : (state.isLive char && char = slot) = true
      · simp only [fillFrom, filled, if_true]
        simp only [Bool.and_eq_true, decide_eq_true_eq] at filled
        rcases filled with ⟨live, rfl⟩
        have stateOutside := eq_outside_of_isLive live
        subst stateOutside
        rw [isClosed, decide_eq_true_eq] at closed
        -- The copy of `inner` is read from the outside to the outside.
        rw [fillFrom_append, closed]
        exact congrArg (fill inner selector ++ ·) (ih outside)
      · simp only [fillFrom, filled, if_false, Bool.false_eq_true, ih]

/-- A fragment with a slot, filled with a closed selector, has live characters of a sort exactly if
it or the selector has. -/
theorem any_live_fill {mark : Char → Bool} (slotUnmarked : mark slot = false)
    {fragment selector : Text} (slotted : hasSlot fragment = true)
    (closed : selector.isClosed = true) :
    (fill fragment selector).live.any mark = (fragment.live.any mark || selector.live.any mark) := by
  have filled : (fill fragment selector).live = fragment.live.flatMap (liveAt selector) :=
    live_fillFrom closed outside fragment
  rw [hasSlot, List.contains_iff_mem] at slotted
  rw [filled, Bool.eq_iff_iff, Bool.or_eq_true, List.any_flatMap, List.any_eq_true,
    List.any_eq_true (l := fragment.live)]
  constructor
  · rintro ⟨char, member, marked⟩
    by_cases isSlot : char = slot
    · exact .inr (by simpa [liveAt, isSlot] using marked)
    · exact .inl ⟨char, member, by simpa [liveAt, isSlot] using marked⟩
  · rintro (⟨char, member, marked⟩ | marked)
    · have notSlot : char ≠ slot := by
        rintro rfl
        rw [slotUnmarked] at marked
        cases marked
      exact ⟨char, member, by simpa [liveAt, notSlot] using marked⟩
    · exact ⟨slot, slotted, by simpa [liveAt] using marked⟩

/-- Filling is associative where the inner fragment is closed. Closed fragments filled with closed
selectors are closed, and rule punctuation is live in them exactly if it is live in one of the
two. -/
theorem fill_fill :
    (∀ inner outer selector : Text, inner.isClosed = true →
      fill outer (fill inner selector) = fill (fill outer inner) selector) ∧
    ∀ fragment selector : Text, fragment.isClosed = true → selector.isClosed = true →
      (fill fragment selector).isClosed = true ∧
      (hasSlot fragment = true →
        ((fill fragment selector).live.any isRulePunctuation = false ↔
          fragment.live.any isRulePunctuation = false ∧
            selector.live.any isRulePunctuation = false)) := by
  refine ⟨fun inner outer selector closed => ?_, fun fragment selector fragmentClosed closed => ?_⟩
  · exact (fillFrom_fillFrom closed outside selector outer).symm
  · refine ⟨isClosed_fill fragmentClosed closed, fun slotted => ?_⟩
    rw [any_live_fill rfl slotted closed, Bool.or_eq_false_iff]

/-- An `&` in a string is no slot of either fragment, nor of the composed one. -/
theorem fill_fill_quotedSlot :
    isClosed "&[title='&;']" = true ∧ isClosed ":is(& > &, \\&)" = true ∧
    fill ":is(& > &, \\&)" (fill "&[title='&;']" ".on") =
      fill (fill ":is(& > &, \\&)" "&[title='&;']") ".on" ∧
    (fill ":is(& > &, \\&)" "&[title='&;']").isClosed = true ∧
    (fill ":is(& > &, \\&)" "&[title='&;']").live.any isRulePunctuation = false := by
  have innerClosed : isClosed "&[title='&;']" = true := by decide
  have outerClosed : isClosed ":is(& > &, \\&)" = true := by decide
  rcases fill_fill.2 _ _ outerClosed innerClosed with ⟨closed, clear⟩
  exact ⟨innerClosed, outerClosed, fill_fill.1 _ _ ".on" innerClosed, closed,
    (clear (by decide)).mpr ⟨by decide, by decide⟩⟩

end AtomicCss.Fragment
