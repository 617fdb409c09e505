import AtomicCss.Proofs.Identifier.Encoding

/-!
# Reading identifiers

A reader of style sheets takes an identifier unit by unit, each as long as it can be, and stops
where no further unit starts. It knows nothing of names and their encoding. This file shows that
such a reader, started at an encoded name, stops exactly at its end, whatever follows, unless what
follows continues an identifier by itself.
-/

namespace AtomicCss.Identifier

/-- Whether `char` ends a line of a style sheet; a backslash does not escape it. -/
def isLineEnd (char : Char) : Bool :=
  char = '\n' || char = '\r' || char = '\x0C'

/-- The digits of a hexadecimal escape, six at most. -/
def leadingDigits (text : Text) : Text :=
  (text.take 6).takeWhile Char.isHexDigit

/-- The blank that a hexadecimal escape takes with it, if there is one. -/
def leadingTerminator (text : Text) : Text :=
  (text.take 1).takeWhile isTerminator

/-- What a backslash in front of a text escapes: digits with the blank after them, or else one
character that does not end the line. -/
def leadingEscape (text : Text) : Text :=
  match leadingDigits text with
  | [] => (text.take 1).takeWhile (!isLineEnd ·)
  | digits => digits ++ leadingTerminator (text.drop digits.length)

/-- The unit of an identifier that a text starts with; empty if there is none. -/
def leadingUnit : Text → Text
  | [] => []
  | char :: rest =>
      if char = '\\' then
        match leadingEscape rest with
        | [] => []
        | escaped => '\\' :: escaped
      else if isNameChar char then [char]
      else []

/-- The identifier that a text starts with. -/
def leading (text : Text) : Text :=
  match _found : leadingUnit text with
  | [] => []
  | char :: unit => char :: unit ++ leading (text.drop (unit.length + 1))
termination_by text.length
decreasing_by
  cases text with
  | nil => simp [leadingUnit] at _found
  | cons first rest =>
      simp only [List.length_drop, List.length_cons]
      omega

theorem leading_eq_nil {text : Text} (stops : leadingUnit text = []) : leading text = [] := by
  rw [leading]
  split
  · rfl
  · simp_all

theorem leading_of_unit {text rest unit : Text} {char : Char}
    (starts : leadingUnit text = char :: unit) (splits : text = char :: unit ++ rest) :
    leading text = char :: unit ++ leading rest := by
  rw [leading]
  split
  · rename_i none
    rw [starts] at none
    cases none
  · rename_i other others found
    rw [starts] at found
    cases found
    simp [splits]

/-! ### The units of encoded names -/

theorem leadingUnit_bare {place : Place} {char : Char} (bare : spelling place char = .bare)
    (rest : Text) : leadingUnit (char :: rest) = [char] := by
  have isName := isNameChar_of_spelling_bare bare
  have notBackslash : char ≠ '\\' := by
    rintro rfl
    exact absurd isName (by decide)
  simp [leadingUnit, notBackslash, isName]

theorem leadingUnit_backslash {place : Place} {char : Char}
    (backslash : spelling place char = .backslash) (rest : Text) :
    leadingUnit ('\\' :: char :: rest) = ['\\', char] := by
  rcases of_spelling_backslash backslash with ⟨-, printable, -⟩
  have notHex := isHexDigit_eq_false_of_spelling_backslash backslash
  have notLineEnd : isLineEnd char = false := by
    simp only [isLineEnd, Bool.or_eq_false_iff, decide_eq_false_iff_not]
    refine ⟨⟨?_, ?_⟩, ?_⟩ <;>
    · rintro rfl
      exact absurd printable (by decide)
  simp [leadingUnit, leadingEscape, leadingDigits, notHex, notLineEnd]

theorem leadingDigits_append {digits rest : Text}
    (hexDigits : ∀ digit ∈ digits, digit.isHexDigit = true) (bounded : digits.length ≤ 6)
    (ends : ∀ char ∈ rest.head?, char.isHexDigit = false) :
    leadingDigits (digits ++ rest) = digits := by
  have restStops : (rest.take (6 - digits.length)).takeWhile Char.isHexDigit = [] := by
    cases rest with
    | nil => simp
    | cons char rest =>
        have notHex := ends char (by simp)
        cases 6 - digits.length <;> simp [notHex]
  rw [leadingDigits, List.take_append, List.take_of_length_le bounded,
    List.takeWhile_append_of_pos hexDigits, restStops, List.append_nil]

theorem leadingUnit_hexEscape (char : Char) (place : Place) (rest suffix : Text) :
    leadingUnit ('\\' :: (Nat.toDigits 16 char.toNat ++ terminator place rest) ++
        (encodeFrom place rest ++ suffix)) =
      '\\' :: (Nat.toDigits 16 char.toNat ++ terminator place rest) := by
  have hexDigits : ∀ digit ∈ Nat.toDigits 16 char.toNat, digit.isHexDigit = true :=
    fun _ member => Text.isHexDigit_of_mem_toDigits member
  have nonempty : Nat.toDigits 16 char.toNat ≠ [] := Nat.toDigits_ne_nil
  -- The digits end at a space or at a backslash, and only the space belongs to the escape.
  have ends : ∀ next ∈ (terminator place rest ++ (encodeFrom place rest ++ suffix)).head?,
      next.isHexDigit = false := by
    rcases terminator_cases place rest with space | ⟨nothing, more, escapes⟩
    · simp [space, show Char.isHexDigit ' ' = false by decide]
    · simp [nothing, escapes, show Char.isHexDigit '\\' = false by decide]
  have terminated : leadingTerminator (terminator place rest ++ (encodeFrom place rest ++ suffix)) =
      terminator place rest := by
    rcases terminator_cases place rest with space | ⟨nothing, more, escapes⟩
    · simp [leadingTerminator, space, show isTerminator ' ' = true by decide]
    · simp [leadingTerminator, nothing, escapes, show isTerminator '\\' = false by decide]
  have digitsRead := leadingDigits_append hexDigits (Text.length_toDigits_char char) ends
  have escapeRead : leadingEscape (Nat.toDigits 16 char.toNat ++
      (terminator place rest ++ (encodeFrom place rest ++ suffix))) =
        Nat.toDigits 16 char.toNat ++ terminator place rest := by
    simp only [leadingEscape, digitsRead]
    cases digitsEq : Nat.toDigits 16 char.toNat with
    | nil => exact absurd digitsEq nonempty
    | cons first digits => simp [terminated]
  simp only [List.cons_append, List.append_assoc, leadingUnit, if_true, escapeRead]
  cases digitsEq : Nat.toDigits 16 char.toNat with
  | nil => exact absurd digitsEq nonempty
  | cons first digits => rfl

/-- The reader stops at the end of an encoded name if what follows does not continue an
identifier. -/
theorem leading_encodeFrom_append {suffix : Text} (stops : leadingUnit suffix = []) (place : Place)
    (name : Text) : leading (encodeFrom place name ++ suffix) = encodeFrom place name := by
  induction name generalizing place with
  | nil => exact leading_eq_nil stops
  | cons char rest ih =>
      cases spelled : spelling place char with
      | bare =>
          have starts := leadingUnit_bare spelled (encodeFrom (place.next char) rest ++ suffix)
          simp only [encodeFrom, spelled, List.cons_append]
          calc
            leading (char :: (encodeFrom (place.next char) rest ++ suffix))
                = char :: leading (encodeFrom (place.next char) rest ++ suffix) :=
              leading_of_unit starts rfl
            _ = char :: encodeFrom (place.next char) rest := by rw [ih]
      | backslash =>
          have starts := leadingUnit_backslash spelled (encodeFrom (place.next char) rest ++ suffix)
          simp only [encodeFrom, spelled, List.cons_append]
          calc
            leading ('\\' :: char :: (encodeFrom (place.next char) rest ++ suffix))
                = '\\' :: char :: leading (encodeFrom (place.next char) rest ++ suffix) :=
              leading_of_unit starts rfl
            _ = '\\' :: char :: encodeFrom (place.next char) rest := by rw [ih]
      | hex =>
          have starts := leadingUnit_hexEscape char (place.next char) rest suffix
          have read := leading_of_unit starts rfl
          rw [ih] at read
          simpa [encodeFrom, spelled] using read

end AtomicCss.Identifier
