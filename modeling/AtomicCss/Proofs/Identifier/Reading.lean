import AtomicCss.Proofs.Identifier.Encoding
import AtomicCss.Proofs.Text.Scan

/-!
# Reading past encoded names

An encoded name consists of name characters, the spaces that end hexadecimal escapes, and escaped
characters. A reader that stands in no escape passes it without noting anything, whether or not it
stands in a string, so that a class is scanned like the dot in front of it.
-/

namespace AtomicCss.Identifier

open Quoting

variable {mark : Char → Bool}

theorem eq_space_of_mem_terminator {char : Char} {place : Place} {rest : Text}
    (member : char ∈ terminator place rest) : char = ' ' := by
  rcases terminator_cases place rest with space | ⟨nothing, -⟩
  · simpa [space] using member
  · simp [nothing] at member

theorem scan_encodeFrom (punctuation : IsPunctuation mark) {quote : Option Char}
    (proper : isProper ⟨quote, false⟩ = true) (place : Place) (name : Text) :
    scan mark ⟨quote, false⟩ (encodeFrom place name) = (⟨quote, false⟩, []) := by
  induction name generalizing place with
  | nil => rfl
  | cons char rest ih =>
      have others := ih (place.next char)
      cases spelled : spelling place char with
      | bare =>
          have nameChar := isNameChar_of_spelling_bare spelled
          simp only [encodeFrom, spelled]
          rw [scan_cons_of_unmarked (punctuation char (.inl nameChar)),
            next_of_isPlain proper (isPlain_of_isNameChar nameChar)]
          exact others
      | backslash =>
          simp only [encodeFrom, spelled]
          rw [scan_escaped]
          exact others
      | hex =>
          have digitsPlain : ∀ digit ∈ Nat.toDigits 16 char.toNat,
              isPlain digit = true ∧ mark digit = false := by
            intro digit member
            have nameChar := isNameChar_of_isHexDigit (Text.isHexDigit_of_mem_toDigits member)
            exact ⟨isPlain_of_isNameChar nameChar, punctuation digit (.inl nameChar)⟩
          have terminatorPlain : ∀ other ∈ terminator (place.next char) rest,
              isPlain other = true ∧ mark other = false := by
            intro other member
            rw [eq_space_of_mem_terminator member]
            exact ⟨rfl, punctuation ' ' (.inr (.inl rfl))⟩
          simp only [encodeFrom, spelled]
          cases digitsEq : Nat.toDigits 16 char.toNat with
          | nil => exact absurd digitsEq Nat.toDigits_ne_nil
          | cons first digits =>
              rw [digitsEq] at digitsPlain
              have moreDigits := scan_of_plain proper
                (fun digit member => digitsPlain digit (List.mem_cons_of_mem first member))
              simp only [List.cons_append]
              rw [scan_escaped, List.append_assoc, scan_append_of_clear moreDigits,
                scan_append_of_clear (scan_of_plain proper terminatorPlain)]
              exact others

/-- Every reader scans a class like the dot that it starts with. -/
theorem scanAlike_classSelector (punctuation : IsPunctuation mark) (name : Text) :
    Text.ScanAlike mark (classSelector name) ['.'] := by
  intro state proper
  have afterDot := isProper_next proper '.'
  have nextEq : state.next '.' = ⟨state.quote, false⟩ := next_of_isPlain proper rfl
  rw [nextEq] at afterDot
  have dot : state.scan mark ['.'] = (⟨state.quote, false⟩, (state.scan mark ['.']).2) := by
    rw [← nextEq]
    rfl
  rw [classSelector, encode, ← List.singleton_append, scan_append dot,
    scan_encodeFrom punctuation afterDot, List.append_nil, ← dot]

end AtomicCss.Identifier
