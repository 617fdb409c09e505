import AtomicCss.Text.Digits

/-!
# Rows of digits

The digits that write a number in base sixteen are hexadecimal digits, and they read back as the
number. Code points have at most six of them. Rows of decimal digits end where their digits end, and
zeros write nothing but zero.
-/

namespace AtomicCss

theorem hexValue_digitChar : ∀ digit < 16, hexValue (Nat.digitChar digit) = digit := by
  decide

theorem isHexDigit_digitChar : ∀ digit < 16, (Nat.digitChar digit).isHexDigit = true := by
  decide

namespace Text

/-- The digits of a number in base sixteen: those of its sixteenth, and one more. -/
theorem toDigits_sixteen (number : Nat) :
    Nat.toDigits 16 number =
      if number < 16 then [number.digitChar]
      else Nat.toDigits 16 (number / 16) ++ [(number % 16).digitChar] :=
  Nat.toDigits_eq_if (by decide)

theorem isHexDigit_of_mem_toDigits {number : Nat} {char : Char}
    (member : char ∈ Nat.toDigits 16 number) : char.isHexDigit = true := by
  induction number using Nat.strongRecOn with
  | ind number ih =>
      rw [toDigits_sixteen] at member
      split at member
      · rename_i small
        simp only [List.mem_singleton] at member
        subst member
        exact isHexDigit_digitChar number small
      · rename_i large
        simp only [List.mem_append, List.mem_singleton] at member
        rcases member with earlier | last
        · exact ih (number / 16) (by omega) earlier
        · subst last
          exact isHexDigit_digitChar (number % 16) (by omega)

theorem inBase_append_singleton (base : Nat) (digits : Text) (digit : Char) :
    inBase base (digits ++ [digit]) = base * inBase base digits + hexValue digit := by
  simp [inBase]

theorem inBase_of_zeros (base : Nat) {digits : Text} (zeros : ∀ digit ∈ digits, digit = '0') :
    inBase base digits = 0 := by
  rw [List.eq_replicate_of_mem zeros]
  generalize digits.length = count
  induction count with
  | zero => rfl
  | succ count ih =>
      rw [List.replicate_succ', inBase_append_singleton, ih]
      rfl

theorem takeWhile_isDigit_append {digits rest : Text}
    (allDigits : ∀ digit ∈ digits, digit.isDigit = true)
    (ends : ∀ char ∈ rest.head?, char.isDigit = false) :
    (digits ++ rest).takeWhile Char.isDigit = digits := by
  rw [List.takeWhile_append_of_pos allDigits]
  cases rest with
  | nil => simp
  | cons char rest => simp [ends char rfl]

/-- A row of digits is as long as the text behind it allows. -/
theorem digits_append_inj {digits rest otherDigits otherRest : Text}
    (allDigits : ∀ digit ∈ digits, digit.isDigit = true)
    (ends : ∀ char ∈ rest.head?, char.isDigit = false)
    (otherAllDigits : ∀ digit ∈ otherDigits, digit.isDigit = true)
    (otherEnds : ∀ char ∈ otherRest.head?, char.isDigit = false)
    (same : digits ++ rest = otherDigits ++ otherRest) :
    digits = otherDigits ∧ rest = otherRest := by
  have sameDigits : digits = otherDigits := by
    rw [← takeWhile_isDigit_append allDigits ends, same,
      takeWhile_isDigit_append otherAllDigits otherEnds]
  subst sameDigits
  exact ⟨rfl, List.append_cancel_left same⟩

theorem inBase_toDigits_sixteen (number : Nat) : inBase 16 (Nat.toDigits 16 number) = number := by
  induction number using Nat.strongRecOn with
  | ind number ih =>
      rw [toDigits_sixteen]
      split
      · rename_i small
        simp [inBase, hexValue_digitChar number small]
      · rename_i large
        rw [inBase_append_singleton, ih (number / 16) (by omega),
          hexValue_digitChar (number % 16) (by omega)]
        omega

theorem length_toDigits_char (char : Char) : (Nat.toDigits 16 char.toNat).length ≤ 6 := by
  rw [Nat.length_toDigits_le_iff (by decide) (by decide)]
  have valid := char.valid
  simp only [UInt32.isValidChar, Nat.isValidChar] at valid
  change char.val.toNat < 16 ^ 6
  omega

/-- The code point of a character stands for that character. -/
theorem scalar?_toNat (char : Char) : scalar? char.toNat = some char := by
  have valid := char.valid
  simp only [UInt32.isValidChar, Nat.isValidChar] at valid
  have inRange : (char.toNat < 0xD800 || 0xDFFF < char.toNat && char.toNat < 0x110000) = true := by
    change (char.val.toNat < 0xD800 || 0xDFFF < char.val.toNat && char.val.toNat < 0x110000) = true
    simp only [Bool.or_eq_true, Bool.and_eq_true, decide_eq_true_eq]
    omega
  rw [scalar?, if_pos inRange, Char.ofNat_toNat]

end Text

end AtomicCss
