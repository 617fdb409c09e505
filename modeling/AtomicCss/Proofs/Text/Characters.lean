import AtomicCss.Text.Blank

/-!
# Classes of characters

Name characters as ranges of code points. None of them is blank. A character of a class differs
from every character outside it.
-/

namespace AtomicCss

theorem isAlphanum_iff {char : Char} : char.isAlphanum = true ↔
    (65 ≤ char.toNat ∧ char.toNat ≤ 90) ∨ (97 ≤ char.toNat ∧ char.toNat ≤ 122) ∨
      (48 ≤ char.toNat ∧ char.toNat ≤ 57) := by
  have ranges : char.isAlphanum =
      (decide (65 ≤ char.toNat ∧ char.toNat ≤ 90) ||
        (decide (97 ≤ char.toNat) && decide (char.toNat ≤ 122)) ||
        (decide (48 ≤ char.toNat) && decide (char.toNat ≤ 57))) := rfl
  rw [ranges]
  simp [or_assoc]

theorem isAlpha_eq_false_of_isDigit {char : Char} (digit : char.isDigit = true) :
    char.isAlpha = false := by
  have alphaRanges : char.isAlpha =
      (decide (65 ≤ char.toNat ∧ char.toNat ≤ 90) ||
        (decide (97 ≤ char.toNat) && decide (char.toNat ≤ 122))) := rfl
  have digitRange : char.isDigit = (decide (48 ≤ char.toNat) && decide (char.toNat ≤ 57)) := rfl
  rw [digitRange] at digit
  rw [alphaRanges]
  simp at digit ⊢
  omega

theorem isBlank_eq_false_of_isNameChar {char : Char} (nameChar : isNameChar char = true) :
    isBlank char = false := by
  simp only [isNameChar, Bool.or_eq_true, decide_eq_true_eq] at nameChar
  rcases nameChar with (alphanumeric | rfl) | rfl
  · have ranges := isAlphanum_iff.mp alphanumeric
    rw [← Bool.not_eq_true]
    intro blank
    simp only [isBlank, blankRanges, List.any_cons, List.any_nil, Bool.or_false, Bool.or_eq_true,
      Bool.and_eq_true, decide_eq_true_eq] at blank
    omega
  · rfl
  · rfl

theorem isNameChar_eq_false_of_isBlank {char : Char} (blank : isBlank char = true) :
    isNameChar char = false := by
  rw [← Bool.not_eq_true]
  intro nameChar
  rw [isBlank_eq_false_of_isNameChar nameChar] at blank
  cases blank

theorem ne_of_isNameChar {char other : Char} (nameChar : isNameChar char = true)
    (otherwise : isNameChar other = false) : char ≠ other := by
  rintro rfl
  exact Bool.false_ne_true (otherwise.symm.trans nameChar)

theorem ne_of_isBlank {char other : Char} (blank : isBlank char = true)
    (otherwise : isBlank other = false) : char ≠ other := by
  rintro rfl
  exact Bool.false_ne_true (otherwise.symm.trans blank)

end AtomicCss
