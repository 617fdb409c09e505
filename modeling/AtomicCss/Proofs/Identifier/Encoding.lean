import AtomicCss.Identifier
import AtomicCss.Proofs.Text.Characters
import AtomicCss.Proofs.Text.Digits

/-!
# Encoded names

What each way of spelling a character says about it, what may follow the digits of a hexadecimal
escape in an encoded name, and that decoding an encoded name gives the name back.
-/

namespace AtomicCss

/-- Hexadecimal digits need no escape. -/
theorem isNameChar_of_isHexDigit {char : Char} (hexDigit : char.isHexDigit = true) :
    isNameChar char = true := by
  simp only [Char.isHexDigit, Char.isDigit, Bool.or_eq_true, Bool.and_eq_true, decide_eq_true_eq,
    ge_iff_le, UInt32.le_iff_toNat_le] at hexDigit
  simp only [isNameChar, Bool.or_eq_true, isAlphanum_iff]
  simp at hexDigit ⊢
  omega

namespace Identifier

theorem isNameChar_of_spelling_bare {place : Place} {char : Char}
    (bare : spelling place char = .bare) : isNameChar char = true := by
  simp only [spelling] at bare
  split at bare
  · cases bare
  · split at bare
    · cases bare
    · split at bare
      · assumption
      · cases bare

/-- Only printable ASCII characters that no name may hold are written with a backslash. -/
theorem of_spelling_backslash {place : Place} {char : Char}
    (backslash : spelling place char = .backslash) :
    isNameChar char = false ∧ 0x20 ≤ char.toNat ∧ char.toNat < 0x7F := by
  simp only [spelling] at backslash
  split at backslash
  · cases backslash
  · rename_i printable
    simp only [Bool.or_eq_true, decide_eq_true_eq, not_or, Nat.not_lt, Nat.not_le] at printable
    split at backslash
    · cases backslash
    · split at backslash
      · cases backslash
      · rename_i notName
        exact ⟨by simpa using notName, printable.1, printable.2⟩

theorem isHexDigit_eq_false_of_spelling_backslash {place : Place} {char : Char}
    (backslash : spelling place char = .backslash) : char.isHexDigit = false := by
  have notName := (of_spelling_backslash backslash).1
  cases hexDigit : char.isHexDigit with
  | false => rfl
  | true => simp [isNameChar_of_isHexDigit hexDigit] at notName

/-- The digits of a hexadecimal escape are followed by the space that ends it, or else directly by
the backslash of another escape. -/
theorem terminator_cases (place : Place) (rest : Text) :
    terminator place rest = [' '] ∨
      terminator place rest = [] ∧ ∃ more, encodeFrom place rest = '\\' :: more := by
  cases rest with
  | nil => exact .inl rfl
  | cons char rest =>
      cases spelled : spelling place char with
      | bare => exact .inl (by simp [terminator, spelled])
      | backslash => exact .inr (by simp [terminator, encodeFrom, spelled])
      | hex => exact .inr (by simp [terminator, encodeFrom, spelled])

/-! ### Decoding -/

/-- How the digits of a hexadecimal escape end: with a blank that belongs to them, or before
something that neither continues nor ends them. -/
inductive EndsDigits (digits : Text) : (blank rest : Text) → Prop
  | blank {mark : Char} {rest : Text} (ends : isTerminator mark = true) :
      EndsDigits digits [mark] rest
  | bare {rest : Text} (follows : ∀ next ∈ rest.head?, isTerminator next = false ∧
      (digits.length < 6 → next.isHexDigit = false)) : EndsDigits digits [] rest

theorem endsDigits_terminator (digits : Text) (place : Place) (rest : Text) :
    EndsDigits digits (terminator place rest) (encodeFrom place rest) := by
  rcases terminator_cases place rest with space | ⟨nothing, more, escapes⟩
  · rw [space]
    exact .blank rfl
  · rw [nothing, escapes]
    apply EndsDigits.bare
    rintro next ⟨⟩
    exact ⟨rfl, fun _ => rfl⟩

theorem isHexDigit_of_isTerminator {mark : Char} (ends : isTerminator mark = true) :
    mark.isHexDigit = false := by
  have all : [' ', '\t', '\n', '\r', '\x0C'].all (!·.isHexDigit) = true := rfl
  rw [isTerminator, List.contains_iff_mem] at ends
  simpa using List.all_eq_true.mp all mark ends

theorem decodeFrom_hex_append {digits : Text}
    (hexDigits : ∀ digit ∈ digits, digit.isHexDigit = true)
    {count : Nat} (bounded : count + digits.length ≤ 6) (value : Nat) (rest : Text) :
    decodeFrom (.hex count value) (digits ++ rest) =
      decodeFrom (.hex (count + digits.length)
        (digits.foldl (fun value digit => 16 * value + hexValue digit) value)) rest := by
  induction digits generalizing count value with
  | nil => rfl
  | cons digit digits ih =>
      simp only [List.length_cons] at bounded
      have hexDigit := hexDigits digit (by simp)
      have open6 : count < 6 := by omega
      rw [List.cons_append, decodeFrom]
      simp only [open6, hexDigit, decide_true, Bool.and_self, if_true]
      rw [ih (fun other mem => hexDigits other (by simp [mem])) (by omega)]
      simp only [List.length_cons, List.foldl_cons]
      rw [show count + 1 + digits.length = count + (digits.length + 1) by omega]

theorem decodeFrom_hex_ends {digits blank rest : Text} (ends : EndsDigits digits blank rest)
    (value : Nat) :
    decodeFrom (.hex digits.length value) (blank ++ rest) =
      meant value :: decodeFrom .character rest := by
  cases ends with
  | blank ends => simp [decodeFrom, isHexDigit_of_isTerminator ends, ends]
  | bare follows =>
      cases rest with
      | nil => rfl
      | cons next rest =>
          rcases follows next rfl with ⟨notMark, notDigit⟩
          have stops : (decide (digits.length < 6) && next.isHexDigit) = false := by
            by_cases short : digits.length < 6
            · rw [notDigit short, Bool.and_false]
            · simp [short]
          simp only [List.nil_append, decodeFrom, stops, notMark, Bool.false_eq_true, if_false]
          by_cases backslash : next = '\\'
          · simp [backslash]
          · simp [backslash]

/-- A hexadecimal escape is read as a whole, whichever way its digits end. -/
theorem decodeFrom_hexEscape {digits blank rest : Text}
    (hexDigits : ∀ digit ∈ digits, digit.isHexDigit = true)
    (counted : 1 ≤ digits.length ∧ digits.length ≤ 6) (ends : EndsDigits digits blank rest) :
    decodeFrom .character ('\\' :: digits ++ blank ++ rest) =
      meant (digits.inBase 16) :: decodeFrom .character rest := by
  cases digits with
  | nil => exact absurd counted.1 (by decide)
  | cons first digits =>
      rw [List.forall_mem_cons] at hexDigits
      rw [List.length_cons] at counted
      have ended := decodeFrom_hex_ends ends (Text.inBase 16 (first :: digits))
      rw [List.length_cons, Nat.add_comm] at ended
      simp only [List.cons_append, List.append_assoc, decodeFrom, if_true,
        hexDigits.1]
      rw [decodeFrom_hex_append hexDigits.2 (by omega), ← ended]
      simp [Text.inBase]

theorem decodeFrom_encodeFrom (place : Place) (name : Text) :
    decodeFrom .character (encodeFrom place name) = name := by
  induction name generalizing place with
  | nil => rfl
  | cons char rest ih =>
      cases spelled : spelling place char with
      | bare =>
          have isName := isNameChar_of_spelling_bare spelled
          have notBackslash : char ≠ '\\' := by
            rintro rfl
            exact absurd isName (by decide)
          simp [encodeFrom, spelled, decodeFrom, notBackslash, ih]
      | backslash =>
          have notHex := isHexDigit_eq_false_of_spelling_backslash spelled
          simp [encodeFrom, spelled, decodeFrom, notHex, ih]
      | hex =>
          simp only [encodeFrom, spelled]
          rw [decodeFrom_hexEscape (fun _ member => Text.isHexDigit_of_mem_toDigits member)
            ⟨List.length_pos_iff.mpr Nat.toDigits_ne_nil, Text.length_toDigits_char char⟩
            (endsDigits_terminator _ _ _), Text.inBase_toDigits_sixteen, meant, Text.scalar?_toNat,
            Option.getD_some, ih]

theorem decode_encode (name : Text) : decode (encode name) = name :=
  decodeFrom_encodeFrom .start name

end Identifier

end AtomicCss
