import AtomicCss.Fragment
import AtomicCss.Proofs.Text.Containment

/-!
# Reading filled fragments

How a reader passes a fragment whose slots have been filled. A closed selector is passed like the
slot that it stands in: the reader comes out of it as it went in, and the marks that it meets there
are inserted into those of the fragment.
-/

namespace AtomicCss.Fragment

open Quoting Text

variable {mark : Char → Bool}

theorem readAll_fillFrom {selector : Text} (closed : selector.isClosed = true) (state : Quoting)
    (fragment : Text) :
    state.readAll (fillFrom state selector fragment) = state.readAll fragment := by
  induction fragment generalizing state with
  | nil => rfl
  | cons char rest ih =>
      simp only [fillFrom]
      split
      · rename_i filled
        simp only [Bool.and_eq_true, decide_eq_true_eq] at filled
        rcases filled with ⟨live, rfl⟩
        have stateOutside := eq_outside_of_isLive live
        subst stateOutside
        rw [isClosed, decide_eq_true_eq] at closed
        rw [readAll_append, closed]
        exact ih outside
      · exact ih (state.next char)

theorem isClosed_fill {fragment selector : Text} (fragmentClosed : fragment.isClosed = true)
    (selectorClosed : selector.isClosed = true) : (fill fragment selector).isClosed = true := by
  rw [isClosed, fill, readAll_fillFrom selectorClosed]
  exact fragmentClosed

/-- What a reader meets live in a filled fragment in place of a character that is live in the
fragment. -/
def liveAt (selector : Text) (char : Char) : Text :=
  if char = slot then selector.live else [char]

theorem live_fillFrom {selector : Text} (closed : selector.isClosed = true) (state : Quoting)
    (fragment : Text) :
    state.live (fillFrom state selector fragment) =
      (state.live fragment).flatMap (liveAt selector) := by
  induction fragment generalizing state with
  | nil => rfl
  | cons char rest ih =>
      by_cases charLive : state.isLive char = true
      · have stateOutside := eq_outside_of_isLive charLive
        subst stateOutside
        by_cases isSlot : char = slot
        · subst isSlot
          rw [isClosed, decide_eq_true_eq] at closed
          have copied : fillFrom outside selector (slot :: rest) =
              selector ++ fillFrom outside selector rest := rfl
          have counted : outside.live (slot :: rest) = slot :: outside.live rest := rfl
          rw [copied, counted, Quoting.live_append, closed, ih outside]
          rfl
        · simp [fillFrom, Quoting.live, charLive, isSlot, ih, liveAt]
      · simp [fillFrom, Quoting.live, charLive, ih]

/-- The marks of a selector are inserted into those of a fragment, once for each slot. A property of
rows of marks that insertion preserves holds of the filled fragment. -/
theorem marks_fillFrom (Holds : Text → Prop)
    (insert : ∀ {front inner back : Text},
      Holds (front ++ back) → Holds inner → Holds (front ++ inner ++ back))
    (slotUnmarked : mark slot = false) {selector : Text} (closed : selector.isClosed = true)
    (inner : Holds (selector.live.filter mark)) (state : Quoting)
    (front fragment : Text) (outer : Holds (front ++ (state.scan mark fragment).2)) :
    Holds (front ++ (state.scan mark (fillFrom state selector fragment)).2) := by
  change Holds (front ++ (state.live (fillFrom state selector fragment)).filter mark)
  change Holds (front ++ (state.live fragment).filter mark) at outer
  rw [live_fillFrom closed]
  -- `front` holds the marks that are already in place: those of the part of the fragment before
  -- `row`, with those of the selector among them.
  generalize state.live fragment = row at outer ⊢
  induction row generalizing front with
  | nil => exact outer
  | cons char row ih =>
      rw [List.flatMap_cons, List.filter_append, ← List.append_assoc]
      by_cases isSlot : char = slot
      · rw [List.filter_cons_of_neg (by simp [isSlot, slotUnmarked])] at outer
        have atSlot : liveAt selector char = selector.live := if_pos isSlot
        rw [atSlot]
        exact ih _ (insert outer inner)
      · have kept : liveAt selector char = [char] := if_neg isSlot
        rw [← List.singleton_append, List.filter_append, ← List.append_assoc] at outer
        rw [kept]
        exact ih _ outer

theorem isContained_fill {fragment selector : Text}
    (fragmentContained : fragment.isContained = true)
    (selectorContained : selector.isContained = true) :
    (fill fragment selector).isContained = true := by
  simp only [isContained_iff_isClear, isClear_iff] at *
  refine ⟨isClosed_fill fragmentContained.1 selectorContained.1, ?_⟩
  have insert {front inner back : Text} (outer : front ++ back = []) (noMarks : inner = []) :
      front ++ inner ++ back = [] := by
    rw [noMarks, List.append_nil, outer]
  exact marks_fillFrom (· = []) insert rfl selectorContained.1 selectorContained.2 outside []
    fragment fragmentContained.2

/-- A fragment that may be spliced is contained as soon as it is closed. -/
theorem isContained_of_isSpliceable {fragment : Text} (spliceable : isSpliceable fragment = true)
    (closed : fragment.isClosed = true) : fragment.isContained = true := by
  simp only [isSpliceable, Bool.and_eq_true, Bool.not_eq_true', List.any_eq_false] at spliceable
  have noPunctuation : fragment.live.any isBlockPunctuation = false := by
    rw [List.any_eq_false]
    intro char member punctuation
    apply spliceable.1.2 char member
    simp only [isBlockPunctuation, Bool.or_eq_true, decide_eq_true_eq] at punctuation
    simp only [isRulePunctuation, Bool.or_eq_true, decide_eq_true_eq]
    exact .inl punctuation
  rw [isContained_eq, closed, noPunctuation]
  rfl

end AtomicCss.Fragment
