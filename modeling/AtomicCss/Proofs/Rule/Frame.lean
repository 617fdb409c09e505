import AtomicCss.Rule.Plan
import Mathlib.Algebra.Group.Nat.Defs

/-!
# Frames

A frame is a selector with holes for another one. The steps of a plan look at nothing but
themselves: each of them is a frame that the selector built so far is put into, and frames nest, so
that a whole plan is a frame as well. Its holes are those of its steps multiplied, since every copy
of the inner frame brings all of its holes along.
-/

namespace AtomicCss

/-- A text with holes in it. -/
inductive Frame
  | done
  | hole (rest : Frame)
  | cons (char : Char) (rest : Frame)

namespace Frame

/-- The text with `selector` in every hole. -/
def fill (selector : Text) : Frame → Text
  | .done => []
  | .hole rest => selector ++ rest.fill selector
  | .cons char rest => char :: rest.fill selector

def holes : Frame → Nat
  | .done => 0
  | .hole rest => rest.holes + 1
  | .cons _ rest => rest.holes

def append : Frame → Frame → Frame
  | .done, right => right
  | .hole rest, right => .hole (rest.append right)
  | .cons char rest, right => .cons char (rest.append right)

/-- The frame `outer` with `inner` in every hole. -/
def nest (outer inner : Frame) : Frame :=
  match outer with
  | .done => .done
  | .hole rest => inner.append (rest.nest inner)
  | .cons char rest => .cons char (rest.nest inner)

/-- What stands before the first hole. -/
def before : Frame → Text
  | .done | .hole _ => []
  | .cons char rest => char :: rest.before

/-- What stands after each hole, up to the next one. -/
def after : Frame → List Text
  | .done => []
  | .hole rest => rest.before :: rest.after
  | .cons _ rest => rest.after

/-- A text without holes. -/
def ofText : Text → Frame
  | [] => .done
  | char :: rest => .cons char (ofText rest)

theorem fill_append (selector : Text) (left right : Frame) :
    (left.append right).fill selector = left.fill selector ++ right.fill selector := by
  induction left with
  | done => rfl
  | hole rest ih => simp [append, fill, ih]
  | cons char rest ih => simp [append, fill, ih]

theorem holes_append (left right : Frame) :
    (left.append right).holes = left.holes + right.holes := by
  induction left with
  | done => simp [append, holes]
  | hole rest ih =>
      simp only [append, holes, ih]
      omega
  | cons char rest ih => simp only [append, holes, ih]

theorem fill_nest (selector : Text) (outer inner : Frame) :
    (outer.nest inner).fill selector = outer.fill (inner.fill selector) := by
  induction outer with
  | done => rfl
  | hole rest ih => rw [nest, fill_append, ih, fill]
  | cons char rest ih => rw [nest, fill, ih, fill]

theorem holes_nest (outer inner : Frame) :
    (outer.nest inner).holes = outer.holes * inner.holes := by
  induction outer with
  | done => simp [nest, holes]
  | hole rest ih => rw [nest, holes_append, ih, holes, Nat.succ_mul, Nat.add_comm]
  | cons char rest ih => rw [nest, holes, ih, holes]

theorem length_after (frame : Frame) : frame.after.length = frame.holes := by
  induction frame with
  | done => rfl
  | hole rest ih => rw [after, List.length_cons, ih, holes]
  | cons char rest ih => rw [after, ih, holes]

/-- A filled frame alternates between its own texts and copies of the selector. -/
theorem fill_eq_intercalate (selector : Text) (frame : Frame) :
    frame.fill selector = selector.intercalate (frame.before :: frame.after) := by
  induction frame with
  | done => simp [fill, before, after, List.intercalate]
  | hole rest ih => rw [fill, before, after, List.intercalate_cons_cons, List.nil_append, ih]
  | cons char rest ih =>
      rw [fill, before, after, ih]
      cases rest.after with
      | nil => simp [List.intercalate]
      | cons next others => simp [List.intercalate_cons_cons]

/-- A relation between texts that concatenation respects holds between the fillings of a frame with
related selectors. -/
theorem fill_congr {Alike : Text → Text → Prop} (refl : ∀ text, Alike text text)
    (append : ∀ {left left' right right' : Text},
      Alike left left' → Alike right right' → Alike (left ++ right) (left' ++ right'))
    {left right : Text} (alike : Alike left right) (frame : Frame) :
    Alike (frame.fill left) (frame.fill right) := by
  induction frame with
  | done => exact refl []
  | hole rest ih => exact append alike ih
  | cons char rest ih => exact append (refl [char]) ih

theorem fill_ofText (selector text : Text) : (ofText text).fill selector = text := by
  induction text with
  | nil => rfl
  | cons char rest ih => rw [ofText, fill, ih]

theorem holes_ofText (text : Text) : (ofText text).holes = 0 := by
  induction text with
  | nil => rfl
  | cons char rest ih => rw [ofText, holes, ih]

end Frame

namespace Fragment

/-- The rest of a fragment as a frame: its slots are the holes. -/
def frameFrom (state : Quoting) : Text → Frame
  | [] => .done
  | char :: rest =>
      if state.isLive char && char = slot then .hole (frameFrom (state.next char) rest)
      else .cons char (frameFrom (state.next char) rest)

theorem fillFrom_eq_fill (state : Quoting) (selector fragment : Text) :
    fillFrom state selector fragment = (frameFrom state fragment).fill selector := by
  induction fragment generalizing state with
  | nil => rfl
  | cons char rest ih =>
      simp only [fillFrom, frameFrom, ih]
      split
      · rw [Frame.fill]
      · rw [Frame.fill]

theorem holes_frameFrom (state : Quoting) (fragment : Text) :
    (frameFrom state fragment).holes = (state.live fragment).count slot := by
  induction fragment generalizing state with
  | nil => rfl
  | cons char rest ih =>
      simp only [frameFrom, Quoting.live]
      by_cases live : state.isLive char = true
      · by_cases isSlot : char = slot
        · subst isSlot
          simp [live, Frame.holes, ih]
        · simp [live, isSlot, Frame.holes, ih]
      · simp [live, Frame.holes, ih]

end Fragment

namespace Step

/-- The frame that a step puts the selector into. -/
def frame : Step → Frame
  | .append suffix => .hole (.ofText suffix)
  | .fill fragment => Fragment.frameFrom .outside fragment

/-- How often a step writes the selector that it is applied to. -/
def copies : Step → Nat
  | .append _ => 1
  | .fill fragment => fragment.live.count Fragment.slot

theorem apply_eq_fill (step : Step) (selector : Text) :
    step.apply selector = step.frame.fill selector := by
  cases step with
  | append suffix => rw [apply, frame, Frame.fill, Frame.fill_ofText]
  | fill fragment => exact Fragment.fillFrom_eq_fill .outside selector fragment

theorem holes_frame (step : Step) : step.frame.holes = step.copies := by
  cases step with
  | append suffix => rw [frame, Frame.holes, Frame.holes_ofText, copies]
  | fill fragment => exact Fragment.holes_frameFrom .outside fragment

end Step

namespace Plan

/-- The frame that the steps of a plan put a frame into, one after the other. -/
def nestAll (steps : List Step) (inner : Frame) : Frame :=
  steps.foldl (fun inner step => step.frame.nest inner) inner

/-- The frame that a plan puts its subject into. -/
def frame (plan : Plan) : Frame :=
  nestAll plan.steps (.hole .done)

/-- How often a plan writes its subject. -/
def copies (plan : Plan) : Nat :=
  (plan.steps.map Step.copies).prod

theorem foldl_apply_fill (steps : List Step) (inner : Frame) (initial : Text) :
    steps.foldl Step.apply (inner.fill initial) = (nestAll steps inner).fill initial := by
  induction steps generalizing inner with
  | nil => rfl
  | cons step steps ih =>
      have applied : step.apply (inner.fill initial) = (step.frame.nest inner).fill initial := by
        rw [Step.apply_eq_fill, Frame.fill_nest]
      rw [List.foldl_cons, applied]
      exact ih (step.frame.nest inner)

theorem foldl_apply_eq_fill (steps : List Step) (initial : Text) :
    steps.foldl Step.apply initial = (nestAll steps (.hole .done)).fill initial := by
  have started : initial = Frame.fill initial (.hole .done) := by simp [Frame.fill]
  calc steps.foldl Step.apply initial
      = steps.foldl Step.apply (Frame.fill initial (.hole .done)) := by rw [← started]
    _ = (nestAll steps (.hole .done)).fill initial := foldl_apply_fill steps (.hole .done) initial

theorem foldl_apply_congr {Alike : Text → Text → Prop} (refl : ∀ text, Alike text text)
    (append : ∀ {left left' right right' : Text},
      Alike left left' → Alike right right' → Alike (left ++ right) (left' ++ right'))
    {left right : Text} (alike : Alike left right) (steps : List Step) :
    Alike (steps.foldl Step.apply left) (steps.foldl Step.apply right) := by
  rw [foldl_apply_eq_fill, foldl_apply_eq_fill]
  exact Frame.fill_congr refl append alike _

theorem holes_nestAll (steps : List Step) (inner : Frame) :
    (nestAll steps inner).holes = (steps.map Step.copies).prod * inner.holes := by
  induction steps generalizing inner with
  | nil => simp [nestAll]
  | cons step steps ih =>
      calc (nestAll (step :: steps) inner).holes
          = (nestAll steps (step.frame.nest inner)).holes := rfl
        _ = (steps.map Step.copies).prod * (step.copies * inner.holes) := by
          rw [ih, Frame.holes_nest, Step.holes_frame]
        _ = ((step :: steps).map Step.copies).prod * inner.holes := by
          rw [List.map_cons, List.prod_cons, ← Nat.mul_assoc, Nat.mul_comm step.copies]

theorem selector_eq_fill (plan : Plan) (initial : Text) :
    plan.selector initial = plan.frame.fill initial :=
  foldl_apply_eq_fill plan.steps initial

theorem holes_frame (plan : Plan) : plan.frame.holes = plan.copies := by
  rw [frame, holes_nestAll]
  exact Nat.mul_one _

end Plan

end AtomicCss
