import AtomicCss.Proofs.Text.Characters
import AtomicCss.Proofs.Text.Digits
import AtomicCss.Utility.Sign
import Mathlib.Algebra.Field.Rat
import Mathlib.Tactic.NormNum

/-!
# Numbers with a unit

What a negative class makes of a value that is a number with a unit. A text states at most one such
quantity (`Quantity.text_injective`), so that the number it denotes is well defined. The negative
of a quantity without a plus sign states the negated number with the same unit, however many zeros
the number is written with. Of an explicit plus sign the negation knows nothing: the hyphen is put
in front of it, and the result states no number at all.
-/

namespace AtomicCss

/-- A number with a unit. The number has an optional sign and digits before a point, after it or
both; without digits after it there is no point. Units are a percent sign, letters or nothing, but
all that matters about them is that they cannot be read as a part of the number. -/
@[ext]
structure Quantity where
  sign : Option Sign
  whole : Text
  fraction : Option Text
  unit : Text
  wholeDigits : ∀ digit ∈ whole, digit.isDigit = true
  fractionDigits : ∀ digits ∈ fraction, digits ≠ [] ∧ ∀ digit ∈ digits, digit.isDigit = true
  hasDigits : whole ≠ [] ∨ fraction.isSome = true
  unitApart : ∀ char ∈ unit, char.isDigit = false ∧ char ≠ '.'

namespace Quantity

def signText : Option Sign → Text
  | none => []
  | some .positive => ['+']
  | some .negative => ['-']

/-- The digits after the point. -/
def places (quantity : Quantity) : Text :=
  quantity.fraction.getD []

/-- The point and the digits after it, if there are any. -/
def pointed : Option Text → Text
  | none => []
  | some digits => '.' :: digits

/-- The text of a quantity without its sign. -/
def unsigned (quantity : Quantity) : Text :=
  quantity.whole ++ pointed quantity.fraction ++ quantity.unit

def text (quantity : Quantity) : Text :=
  signText quantity.sign ++ quantity.unsigned

def magnitude (quantity : Quantity) : ℚ :=
  Text.decimalNumber (quantity.whole ++ quantity.places) / 10 ^ quantity.places.length

def number (quantity : Quantity) : ℚ :=
  if quantity.sign = some .negative then -quantity.magnitude else quantity.magnitude

/-- The quantity with this sign in place of its own. -/
def withSign (quantity : Quantity) (sign : Option Sign) : Quantity :=
  { quantity with sign }

/-- The sign that a text starts with. -/
def leadingSign : Text → Option Sign
  | '+' :: _ => some .positive
  | '-' :: _ => some .negative
  | _ => none

variable (quantity : Quantity)

theorem isDigit_or_eq_point {char : Char}
    (member : char ∈ quantity.whole ++ pointed quantity.fraction) :
    char.isDigit = true ∨ char = '.' := by
  rcases List.mem_append.mp member with inWhole | afterWhole
  · exact .inl (quantity.wholeDigits char inWhole)
  · cases fractionEq : quantity.fraction with
    | none => simp [fractionEq, pointed] at afterWhole
    | some digits =>
        rw [fractionEq, pointed, List.mem_cons] at afterWhole
        rcases afterWhole with isPoint | inDigits
        · exact .inr isPoint
        · exact .inl ((quantity.fractionDigits digits fractionEq).2 char inDigits)

theorem exists_unsigned_eq_cons :
    ∃ first rest, quantity.unsigned = first :: rest ∧ (first.isDigit = true ∨ first = '.') := by
  have notEmpty : quantity.whole ++ pointed quantity.fraction ≠ [] := by
    rcases quantity.hasDigits with hasWhole | hasFraction
    · simp [hasWhole]
    · rcases Option.isSome_iff_exists.mp hasFraction with ⟨digits, fractionEq⟩
      simp [fractionEq, pointed]
  rcases List.exists_cons_of_ne_nil notEmpty with ⟨first, rest, numberEq⟩
  refine ⟨first, rest ++ quantity.unit, by rw [unsigned, numberEq, List.cons_append], ?_⟩
  exact quantity.isDigit_or_eq_point (by simp [numberEq])

theorem leadingSign_text : leadingSign quantity.text = quantity.sign := by
  rcases signEq : quantity.sign with _ | sign
  · rcases quantity.exists_unsigned_eq_cons with ⟨first, rest, unsignedEq, isNumber⟩
    rw [text, signEq, unsignedEq]
    change leadingSign (first :: rest) = none
    rw [leadingSign]
    · rintro rest ⟨rfl, -⟩
      simp at isNumber
    · rintro rest ⟨rfl, -⟩
      simp at isNumber
  · rw [text, signEq]
    cases sign <;> rfl

theorem isDigit_head?_unit {char : Char} (first : char ∈ quantity.unit.head?) :
    char.isDigit = false :=
  (quantity.unitApart char (List.mem_of_mem_head? first)).1

/-- What follows the digits before the point cannot be read as one of them. -/
theorem isDigit_head?_rest {char : Char}
    (first : char ∈ (pointed quantity.fraction ++ quantity.unit).head?) :
    char.isDigit = false := by
  cases fractionEq : quantity.fraction with
  | none =>
      rw [fractionEq] at first
      exact quantity.isDigit_head?_unit first
  | some digits =>
      rw [fractionEq] at first
      cases first
      rfl

theorem fraction_unit_inj {quantity other : Quantity}
    (same : pointed quantity.fraction ++ quantity.unit = pointed other.fraction ++ other.unit) :
    quantity.fraction = other.fraction ∧ quantity.unit = other.unit := by
  have noPoint (quantity : Quantity) (rest : Text) : quantity.unit ≠ '.' :: rest := by
    intro unitEq
    exact (quantity.unitApart '.' (by simp [unitEq])).2 rfl
  cases fractionEq : quantity.fraction with
  | none =>
      cases otherEq : other.fraction with
      | none =>
          rw [fractionEq, otherEq] at same
          exact ⟨rfl, same⟩
      | some otherDigits =>
          rw [fractionEq, otherEq] at same
          exact absurd same (noPoint quantity _)
  | some digits =>
      cases otherEq : other.fraction with
      | none =>
          rw [fractionEq, otherEq] at same
          exact absurd same.symm (noPoint other _)
      | some otherDigits =>
          rw [fractionEq, otherEq] at same
          rcases Text.digits_append_inj (quantity.fractionDigits digits fractionEq).2
            (fun _ => quantity.isDigit_head?_unit) (other.fractionDigits otherDigits otherEq).2
            (fun _ => other.isDigit_head?_unit) (List.cons.inj same).2 with ⟨rfl, sameUnit⟩
          exact ⟨rfl, sameUnit⟩

/-- A text states at most one quantity. -/
theorem text_injective : Function.Injective text := by
  intro quantity other same
  have sameSign : quantity.sign = other.sign := by
    rw [← leadingSign_text, same, leadingSign_text]
  have sameUnsigned : quantity.unsigned = other.unsigned := by
    rw [text, text, sameSign] at same
    exact List.append_cancel_left same
  rw [unsigned, unsigned, List.append_assoc, List.append_assoc] at sameUnsigned
  rcases Text.digits_append_inj quantity.wholeDigits (fun _ => quantity.isDigit_head?_rest)
    other.wholeDigits (fun _ => other.isDigit_head?_rest) sameUnsigned with ⟨sameWhole, sameRest⟩
  rcases fraction_unit_inj sameRest with ⟨sameFraction, sameUnit⟩
  exact Quantity.ext sameSign sameWhole sameFraction sameUnit

end Quantity

namespace Sign

theorem negate_of_isAlpha {value : Text} (word : value.head?.any Char.isAlpha = true) :
    negate value = "calc(" ++ value ++ " * -1)" := by
  cases value with
  | nil => cases word
  | cons first rest =>
      have notZero : isZero (first :: rest) = false := by
        rw [isZero, Bool.and_eq_false_iff]
        left
        simp only [List.head?_cons, Option.any_some, Bool.or_eq_false_iff, decide_eq_false_iff_not]
          at word ⊢
        constructor
        · rintro rfl
          cases word
        · rintro rfl
          cases word
      simp only [negate, notZero, word, Bool.false_eq_true, if_false, if_true]

theorem negate_of_unsigned {first : Char} {rest : Text}
    (isNumber : first.isDigit = true ∨ first = '.') :
    negate (first :: rest) =
      if isZero (first :: rest) then first :: rest else '-' :: first :: rest := by
  have noWord : first.isAlpha = false := by
    rcases isNumber with isDigit | rfl
    · exact isAlpha_eq_false_of_isDigit isDigit
    · rfl
  rw [negate]
  · simp only [List.head?_cons, Option.any_some, noWord, Bool.false_eq_true, if_false]
  · rintro rest startsWithHyphen
    rw [(List.cons.inj startsWithHyphen).1] at isNumber
    simp at isNumber

theorem eq_zero_of_isZero {number rest : Text}
    (isNumber : ∀ char ∈ number, char.isDigit = true ∨ char = '.')
    (zero : isZero (number ++ rest) = true) : ∀ char ∈ number, char = '0' ∨ char = '.' := by
  rw [isZero, Bool.and_eq_true, Bool.not_eq_true'] at zero
  rcases zero with ⟨-, noDigit⟩
  -- Zeros and points are dropped one by one; what stops this would be a digit, and there is none.
  induction number with
  | nil => simp
  | cons char number ih =>
      rw [List.cons_append] at noDigit
      by_cases isFiller : char = '0' ∨ char = '.'
      · rw [List.dropWhile_cons_of_pos (by simpa using isFiller)] at noDigit
        have others := ih (fun other member => isNumber other (by simp [member])) noDigit
        simpa [isFiller] using others
      · rw [List.dropWhile_cons_of_neg (by simpa using isFiller)] at noDigit
        rcases isNumber char List.mem_cons_self with isDigit | isPoint
        · simp [isDigit] at noDigit
        · exact absurd (.inr isPoint) isFiller

end Sign

namespace Quantity

variable {quantity : Quantity}

theorem magnitude_eq_zero (zero : Sign.isZero quantity.unsigned = true) :
    quantity.magnitude = 0 := by
  have fillers := Sign.eq_zero_of_isZero (fun _ => quantity.isDigit_or_eq_point) zero
  have zeros : ∀ digit ∈ quantity.whole ++ quantity.places, digit = '0' := by
    intro digit member
    have isDigit : digit.isDigit = true ∧ digit ∈ quantity.whole ++ pointed quantity.fraction := by
      rcases List.mem_append.mp member with inWhole | inPlaces
      · exact ⟨quantity.wholeDigits digit inWhole, List.mem_append_left _ inWhole⟩
      · cases fractionEq : quantity.fraction with
        | none => simp [places, fractionEq] at inPlaces
        | some digits =>
            have inDigits : digit ∈ digits := by simpa [places, fractionEq] using inPlaces
            exact ⟨(quantity.fractionDigits digits fractionEq).2 digit inDigits,
              by simp [pointed, inDigits]⟩
    rcases fillers digit isDigit.2 with isZero | rfl
    · exact isZero
    · cases isDigit.1
  rw [magnitude, Text.decimalNumber, Text.inBase_of_zeros 10 zeros]
  simp

theorem text_of_sign {sign : Option Sign} (signEq : quantity.sign = sign) :
    quantity.text = signText sign ++ quantity.unsigned := by
  rw [text, signEq]

theorem number_of_sign {sign : Option Sign} (signEq : quantity.sign = sign) :
    quantity.number = if sign = some .negative then -quantity.magnitude else quantity.magnitude := by
  rw [number, signEq]

theorem head?_text_eq_plus_iff : quantity.text.head? = some '+' ↔ quantity.sign = some .positive := by
  constructor
  · intro startsWithPlus
    rcases List.head?_eq_some_iff.mp startsWithPlus with ⟨rest, textEq⟩
    rw [← leadingSign_text, textEq]
    rfl
  · intro signEq
    rw [text_of_sign signEq]
    rfl

theorem exists_text_eq_negate (noPlus : quantity.sign ≠ some .positive) :
    ∃ negated : Quantity, negated.text = Sign.negate quantity.text ∧
      negated.number = -quantity.number ∧ negated.unit = quantity.unit := by
  cases signEq : quantity.sign with
  | none =>
      rcases quantity.exists_unsigned_eq_cons with ⟨first, rest, unsignedEq, isNumber⟩
      have textEq : quantity.text = quantity.unsigned := text_of_sign signEq
      have numberEq : quantity.number = quantity.magnitude := number_of_sign signEq
      have negateEq : Sign.negate (first :: rest) = _ := Sign.negate_of_unsigned isNumber
      rw [← unsignedEq] at negateEq
      rw [textEq, numberEq, negateEq]
      split
      · rename_i zero
        refine ⟨quantity, textEq, ?_, rfl⟩
        rw [numberEq, magnitude_eq_zero zero, neg_zero]
      · exact ⟨quantity.withSign (some .negative), rfl, rfl, rfl⟩
  | some sign =>
      cases sign with
      | positive => exact absurd signEq noPlus
      | negative =>
          have textEq : quantity.text = '-' :: quantity.unsigned := text_of_sign signEq
          have numberEq : quantity.number = -quantity.magnitude := number_of_sign signEq
          rw [textEq, numberEq, neg_neg]
          exact ⟨quantity.withSign none, rfl, rfl, rfl⟩

/-- A hyphen in front of a plus sign makes no quantity. -/
theorem text_ne_negate (plus : quantity.sign = some .positive) (other : Quantity) :
    other.text ≠ Sign.negate quantity.text := by
  intro same
  have negateEq : Sign.negate quantity.text = '-' :: '+' :: quantity.unsigned := by
    rw [text_of_sign plus]
    rfl
  rw [negateEq] at same
  have otherSign : other.sign = some .negative := by
    rw [← leadingSign_text, same]
    rfl
  have startsWithPlus : other.unsigned = '+' :: quantity.unsigned := by
    rw [text_of_sign otherSign] at same
    exact (List.cons.inj same).2
  rcases other.exists_unsigned_eq_cons with ⟨first, rest, unsignedEq, isNumber⟩
  rw [unsignedEq, List.cons.injEq] at startsWithPlus
  rw [startsWithPlus.1] at isNumber
  simp at isNumber

end Quantity

/-- Whether a text states a number of a unit. -/
def Text.States (text : Text) (number : ℚ) (unit : Text) : Prop :=
  ∃ quantity : Quantity, quantity.text = text ∧ quantity.number = number ∧ quantity.unit = unit

namespace Sign

/-- The negative of a value that states a number states the negated number with the same unit, and
no other; but if the value has an explicit plus sign, its negative states no number at all. A value
that starts with a letter is negated by a calculation, and the positive sign changes nothing. -/
theorem negative_states_iff (value : Text) :
    (∀ (number : ℚ) (unit : Text), value.States number unit →
      ∀ (negated : ℚ) (negatedUnit : Text),
        (Sign.negative.apply value).States negated negatedUnit ↔
          value.head? ≠ some '+' ∧ negated = -number ∧ negatedUnit = unit) ∧
    (value.head?.any Char.isAlpha = true →
      Sign.negative.apply value = "calc(" ++ value ++ " * -1)") ∧
    Sign.positive.apply value = value := by
  refine ⟨?_, negate_of_isAlpha, rfl⟩
  rintro number unit ⟨quantity, rfl, rfl, rfl⟩ negated negatedUnit
  rw [ne_eq, Quantity.head?_text_eq_plus_iff, apply]
  constructor
  · rintro ⟨other, textEq, rfl, rfl⟩
    have noPlus : quantity.sign ≠ some .positive :=
      fun plus => Quantity.text_ne_negate plus other textEq
    rcases Quantity.exists_text_eq_negate noPlus with ⟨expected, expectedEq, numberEq, unitEq⟩
    have same : other = expected := Quantity.text_injective (textEq.trans expectedEq.symm)
    exact ⟨noPlus, by rw [same, numberEq], by rw [same, unitEq]⟩
  · rintro ⟨noPlus, rfl, rfl⟩
    exact Quantity.exists_text_eq_negate noPlus

/-- Half a turn without a digit before the point, and a length that is computed. -/
theorem negative_states_iff_halfTurn :
    Text.States ".50turn" (1 / 2) "turn" ∧
    (Sign.negative.apply ".50turn").States (-(1 / 2)) "turn" ∧
    Sign.negative.apply "var(--gap)" = ("calc(var(--gap) * -1)" : Text) := by
  have states : Text.States ".50turn" (1 / 2) "turn" := by
    have digits : Text.decimalNumber ['5', '0'] = 50 := by decide
    refine ⟨⟨none, [], some ['5', '0'], ['t', 'u', 'r', 'n'], by simp, by simp, .inr rfl, by simp⟩,
      rfl, ?_, rfl⟩
    change (Text.decimalNumber ['5', '0'] : ℚ) / 10 ^ 2 = 1 / 2
    rw [digits]
    norm_num
  refine ⟨states, ?_, (negative_states_iff "var(--gap)").2.1 (by decide)⟩
  exact ((negative_states_iff ".50turn").1 _ _ states _ _).mpr ⟨by decide, rfl, rfl⟩

/-- A length with a plus sign has no negative. -/
theorem not_negative_states_plus :
    Text.States "+5px" 5 "px" ∧
      ∀ (number : ℚ) (unit : Text), ¬(Sign.negative.apply "+5px").States number unit := by
  have states : Text.States "+5px" 5 "px" := by
    have digits : Text.decimalNumber ['5'] = 5 := by decide
    refine ⟨⟨some .positive, ['5'], none, ['p', 'x'], by simp, by simp, .inl (by simp), by simp⟩,
      rfl, ?_, rfl⟩
    change (Text.decimalNumber ['5'] : ℚ) / 10 ^ 0 = 5
    rw [digits]
    norm_num
  refine ⟨states, ?_⟩
  rintro number unit ⟨other, otherEq, -⟩
  rcases states with ⟨quantity, textEq, -⟩
  have plus : quantity.sign = some .positive := by
    rw [← Quantity.head?_text_eq_plus_iff, textEq]
    rfl
  refine Quantity.text_ne_negate plus other ?_
  rw [textEq]
  exact otherEq

end Sign

end AtomicCss
