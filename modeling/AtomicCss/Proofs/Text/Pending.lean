import AtomicCss.Proofs.Text.Occurrences
import AtomicCss.Proofs.Text.Quoting
import Mathlib.Data.List.DropRight

/-!
# Pending backslashes

The backslashes at the end of a text wait for the character after it. In a row of backslashes every
second one is inert, so the character is inert if the row is odd, and this does not depend on what
stands before the row, nor on whether a string is open there.

Whether a text can be read safely is often a matter of what comes before each quote or bracket in
it, and `EachAfter` asks that.
-/

namespace AtomicCss.Text

/-- How many backslashes a text ends in. -/
def pending (text : Text) : Nat :=
  (text.rtakeWhile (· = '\\')).length

/-- Whether the character after a text is inert. -/
def EscapesNext (text : Text) : Prop :=
  text.pending % 2 = 1

instance (text : Text) : Decidable text.EscapesNext :=
  inferInstanceAs (Decidable (_ = _))

theorem pending_append_backslash (text : Text) : pending (text ++ ['\\']) = text.pending + 1 := by
  simp [pending]

theorem pending_append_of_ne {char : Char} (notBackslash : char ≠ '\\') (text : Text) :
    pending (text ++ [char]) = 0 := by
  simp [pending, notBackslash]

theorem pending_replicate (count : Nat) : pending (List.replicate count '\\') = count := by
  induction count with
  | zero => rfl
  | succ count ih => rw [List.replicate_succ', pending_append_backslash, ih]

/-- Where no backslash is pending, what has been read so far does not matter. -/
theorem pending_append {front : Text} (noPending : front.pending = 0) (back : Text) :
    pending (front ++ back) = back.pending := by
  induction back using List.reverseRecOn with
  | nil =>
      rw [List.append_nil, noPending]
      rfl
  | append_singleton back last ih =>
      rw [← List.append_assoc]
      by_cases backslash : last = '\\'
      · subst backslash
        rw [pending_append_backslash, pending_append_backslash, ih]
      · rw [pending_append_of_ne backslash, pending_append_of_ne backslash]

theorem pending_eq_zero {text : Text} (noBackslash : '\\' ∉ text) : text.pending = 0 := by
  rw [pending, List.length_eq_zero_iff, List.eq_nil_iff_forall_not_mem]
  intro char member
  have backslash := List.mem_rtakeWhile_imp member
  rw [decide_eq_true_eq] at backslash
  subst backslash
  exact noBackslash ((List.rtakeWhile_suffix _ _).subset member)

theorem not_escapesNext_nil : ¬EscapesNext [] := by
  decide

theorem escapesNext_append_singleton {text : Text} {char : Char} :
    EscapesNext (text ++ [char]) ↔ char = '\\' ∧ ¬text.EscapesNext := by
  by_cases backslash : char = '\\'
  · subst backslash
    simp only [EscapesNext, pending_append_backslash, true_and]
    omega
  · simp [EscapesNext, pending_append_of_ne backslash, backslash]

theorem not_escapesNext {text : Text} (noBackslash : '\\' ∉ text) : ¬text.EscapesNext := by
  rw [EscapesNext, pending_eq_zero noBackslash]
  omega

/-- A reader that stands in no escape has a backslash pending after a text that escapes the next
character. -/
theorem escaped_readAll_iff {state : Quoting} (notEscaped : state.escaped = false) (text : Text) :
    (state.readAll text).escaped = true ↔ text.EscapesNext := by
  induction text using List.reverseRecOn with
  | nil => simp [Quoting.readAll, notEscaped, not_escapesNext_nil]
  | append_singleton text char ih =>
      rw [Quoting.readAll_append, escapesNext_append_singleton, ← ih]
      change ((state.readAll text).next char).escaped = true ↔ _
      by_cases backslash : char = '\\'
      · subst backslash
        cases escaped : (state.readAll text).escaped <;> simp [Quoting.next, escaped]
      · simp [Quoting.escaped_next _ backslash, backslash]

/-! ### What comes before a mark -/

/-- Whether each `mark` in a text comes after a text that is `Good`. -/
def EachAfter (Good : Text → Prop) (mark : Char) (text : Text) : Prop :=
  ∀ front back : Text, text = front ++ mark :: back → Good front

instance (Good : Text → Prop) [DecidablePred Good] (mark : Char) (text : Text) :
    Decidable (EachAfter Good mark text) :=
  decidable_of_iff (∀ place ∈ occurrences [mark] text, Good place.1) (by
    simp only [EachAfter, Prod.forall, mem_occurrences_iff, List.append_assoc,
      List.singleton_append])

variable {Good : Text → Prop} {mark : Char}

theorem eachAfter_of_notMem {text : Text} (notMem : mark ∉ text) : EachAfter Good mark text := by
  rintro front back rfl
  simp at notMem

theorem eachAfter_append_singleton_iff {text : Text} {last : Char} :
    EachAfter Good mark (text ++ [last]) ↔
      EachAfter Good mark text ∧ (last = mark → Good text) := by
  constructor
  · intro each
    constructor
    · rintro front back rfl
      apply each front (back ++ [last])
      rw [List.append_assoc, List.cons_append]
    · rintro rfl
      exact each text [] rfl
  · rintro ⟨each, atEnd⟩ front back splits
    rcases List.eq_nil_or_concat' back with rfl | ⟨init, final, rfl⟩
    · rcases List.append_inj' splits rfl with ⟨rfl, sameLast⟩
      exact atEnd (List.singleton_inj.mp sameLast)
    · rw [← List.cons_append, ← List.append_assoc] at splits
      exact each front init (List.append_inj' splits rfl).1

/-- Where no backslash is pending, escapes are told by what follows alone. -/
theorem EachAfter.append {left right : Text} (leftEach : EachAfter EscapesNext mark left)
    (noPending : left.pending = 0) (rightEach : EachAfter EscapesNext mark right) :
    EachAfter EscapesNext mark (left ++ right) := by
  induction right using List.reverseRecOn with
  | nil =>
      rw [List.append_nil]
      exact leftEach
  | append_singleton right last ih =>
      rw [eachAfter_append_singleton_iff] at rightEach
      rw [← List.append_assoc, eachAfter_append_singleton_iff, EscapesNext,
        pending_append noPending]
      exact ⟨ih rightEach.1, rightEach.2⟩

end AtomicCss.Text
