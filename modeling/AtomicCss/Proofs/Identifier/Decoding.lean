import AtomicCss.Proofs.Identifier.Encoding

/-!
# Decoding

A style sheet may spell one name in many ways: any character but a backslash may stand for itself,
any character but a hexadecimal digit may follow a backslash, and the code point of any character
may be written with leading zeros, in either case of the letters, and with or without a blank after
its digits. The author chooses anew for every character of the name. Decoding reads all of these
spellings, of which `encode` writes a single one.

What bounds the choice is how far a hexadecimal escape reaches, and `EndsDigits` says that.
-/

namespace AtomicCss.Identifier

/-- An identifier stands for a name if it spells the characters of the name one after the other,
each in one of the ways that style sheets allow. -/
inductive StandsFor : (identifier name : Text) → Prop
  | nil : StandsFor [] []
  | bare {char : Char} {identifier name : Text} (notBackslash : char ≠ '\\')
      (others : StandsFor identifier name) : StandsFor (char :: identifier) (char :: name)
  | backslash {char : Char} {identifier name : Text} (notHex : char.isHexDigit = false)
      (others : StandsFor identifier name) : StandsFor ('\\' :: char :: identifier) (char :: name)
  | hex {char : Char} {digits blank identifier name : Text}
      (hexDigits : ∀ digit ∈ digits, digit.isHexDigit = true)
      (counted : 1 ≤ digits.length ∧ digits.length ≤ 6)
      (value : digits.inBase 16 = char.toNat)
      (ends : EndsDigits digits blank identifier)
      (others : StandsFor identifier name) :
      StandsFor ('\\' :: digits ++ blank ++ identifier) (char :: name)

theorem decode_of_standsFor {identifier name : Text} (stands : StandsFor identifier name) :
    decode identifier = name := by
  rw [decode]
  induction stands with
  | nil => rfl
  | bare notBackslash _ ih => rw [decodeFrom, if_neg notBackslash, ih]
  | backslash notHex _ ih =>
      rw [decodeFrom, if_pos rfl, decodeFrom, ih]
      simp [notHex]
  | hex hexDigits counted value ends _ ih =>
      rw [decodeFrom_hexEscape hexDigits counted ends, ih, value, meant, Text.scalar?_toNat]
      rfl

/-- A tab ends the first escape, a backslash the second, and the last one has all its six digits
before another digit. -/
theorem decode_of_standsFor_mixedEscapes :
    StandsFor "\\32\tx\\2605\\-\\00005Ca" "2x★-\\a" ∧
    decode "\\32\tx\\2605\\-\\00005Ca" = "2x★-\\a" := by
  have letter : StandsFor "a" "a" := .bare (by decide) .nil
  have sixDigits : StandsFor "\\00005Ca" "\\a" := by
    refine @StandsFor.hex '\\' "00005C" [] "a" "a" (List.all_eq_true.mp rfl) (by decide) rfl
      (.bare ?_) letter
    rintro next ⟨⟩
    exact ⟨rfl, fun short => absurd short (by decide)⟩
  have star : StandsFor "\\2605\\-\\00005Ca" "★-\\a" := by
    refine @StandsFor.hex '★' "2605" [] "\\-\\00005Ca" "-\\a" (List.all_eq_true.mp rfl) (by decide)
      rfl (.bare ?_) (.backslash rfl sixDigits)
    rintro next ⟨⟩
    exact ⟨rfl, fun _ => rfl⟩
  have whole : StandsFor "\\32\tx\\2605\\-\\00005Ca" "2x★-\\a" :=
    @StandsFor.hex '2' "32" "\t" "x\\2605\\-\\00005Ca" "x★-\\a" (List.all_eq_true.mp rfl)
      (by decide) rfl (.blank rfl) (.bare (by decide) star)
  exact ⟨whole, decode_of_standsFor whole⟩

end AtomicCss.Identifier
