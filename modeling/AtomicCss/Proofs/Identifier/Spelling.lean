import AtomicCss.Proofs.Identifier.Encoding

/-!
# Encoded names are identifiers

Style sheets fix which texts are identifiers: rows of units, of which each is a name character, an
escaped character or a hexadecimal escape, and the first of which may not be a digit. An encoded
name is such a text, in printable ASCII, with one unit for every character of the name, and it
decodes to the name.

A hexadecimal escape reaches as far as it can. `Spells` therefore asks that the digits are followed
by the space that belongs to them, or by something that neither continues nor ends them.
-/

namespace AtomicCss.Identifier

def isPrintable (char : Char) : Bool :=
  0x20 ≤ char.toNat && char.toNat < 0x7F

/-- An identifier spells a name if it consists of one unit for each of its characters. -/
inductive Spells : (identifier name : Text) → Prop
  | nil : Spells [] []
  | bare {char : Char} {identifier name : Text} (isName : isNameChar char = true)
      (others : Spells identifier name) : Spells (char :: identifier) (char :: name)
  | backslash {char : Char} {identifier name : Text} (notHex : char.isHexDigit = false)
      (others : Spells identifier name) : Spells ('\\' :: char :: identifier) (char :: name)
  | hex {char : Char} {digits blank identifier name : Text}
      (hexDigits : ∀ digit ∈ digits, digit.isHexDigit = true)
      (counted : 1 ≤ digits.length ∧ digits.length ≤ 6)
      (value : digits.inBase 16 = char.toNat)
      (ended : blank = [' '] ∨ blank = [] ∧
        ∀ next ∈ identifier.head?, next.isHexDigit = false ∧ isTerminator next = false)
      (others : Spells identifier name) :
      Spells ('\\' :: digits ++ blank ++ identifier) (char :: name)

/-- Whether a unit that starts with `char` may stand first in an identifier: a letter, an underscore
or an escape. -/
def isLead (char : Char) : Bool :=
  char.isAlpha || char = '_' || char = '\\'

/-- Whether a row of units may be an identifier as far as its start is concerned. After a hyphen, a
second hyphen will do as well. -/
def startsName : Text → Bool
  | '-' :: next :: _ => isLead next || next = '-'
  | first :: _ => isLead first
  | [] => false

/-! ### Characters -/

theorem isPrintable_of_isNameChar {char : Char} (isName : isNameChar char = true) :
    isPrintable char = true := by
  simp only [isNameChar, Bool.or_eq_true, decide_eq_true_eq] at isName
  rcases isName with (alphanumeric | rfl) | rfl
  · have ranges := isAlphanum_iff.mp alphanumeric
    simp only [isPrintable, Bool.and_eq_true, decide_eq_true_eq]
    omega
  · rfl
  · rfl

theorem isPrintable_of_mem_encodeFrom {char : Char} {place : Place} {name : Text}
    (member : char ∈ encodeFrom place name) : isPrintable char = true := by
  induction name generalizing place with
  | nil => cases member
  | cons first rest ih =>
      cases spelled : spelling place first with
      | bare =>
          simp only [encodeFrom, spelled, List.mem_cons] at member
          rcases member with rfl | later
          · exact isPrintable_of_isNameChar (isNameChar_of_spelling_bare spelled)
          · exact ih later
      | backslash =>
          simp only [encodeFrom, spelled, List.mem_cons] at member
          rcases member with rfl | rfl | later
          · rfl
          · rcases of_spelling_backslash spelled with ⟨-, lower, upper⟩
            simp [isPrintable, lower, upper]
          · exact ih later
      | hex =>
          simp only [encodeFrom, spelled, List.cons_append, List.mem_cons,
            List.mem_append] at member
          rcases member with rfl | (digit | blank) | later
          · rfl
          · exact isPrintable_of_isNameChar
              (isNameChar_of_isHexDigit (Text.isHexDigit_of_mem_toDigits digit))
          · rcases terminator_cases (place.next first) rest with space | ⟨nothing, -⟩
            · rw [space, List.mem_singleton] at blank
              subst blank
              rfl
            · simp [nothing] at blank
          · exact ih later

/-! ### Units -/

theorem spells_encodeFrom (place : Place) (name : Text) : Spells (encodeFrom place name) name := by
  induction name generalizing place with
  | nil => exact .nil
  | cons char rest ih =>
      have others := ih (place.next char)
      cases spelled : spelling place char with
      | bare =>
          simp only [encodeFrom, spelled]
          exact .bare (isNameChar_of_spelling_bare spelled) others
      | backslash =>
          simp only [encodeFrom, spelled]
          exact .backslash (isHexDigit_eq_false_of_spelling_backslash spelled) others
      | hex =>
          simp only [encodeFrom, spelled]
          apply Spells.hex
          · exact fun _ member => Text.isHexDigit_of_mem_toDigits member
          · exact ⟨List.length_pos_iff.mpr Nat.toDigits_ne_nil, Text.length_toDigits_char char⟩
          · exact Text.inBase_toDigits_sixteen char.toNat
          · rcases terminator_cases (place.next char) rest with space | ⟨nothing, more, escapes⟩
            · exact .inl space
            · refine .inr ⟨nothing, ?_⟩
              simp only [escapes, List.head?_cons, Option.mem_some_iff]
              rintro next rfl
              exact ⟨rfl, rfl⟩
          · exact others

/-! ### The first unit -/

/-- A digit is never written bare where it would start an identifier. -/
theorem isLead_of_spelling_bare {place : Place} {char : Char} (leads : place ≠ .inside)
    (bare : spelling place char = .bare) : isLead char = true ∨ char = '-' := by
  have isName := isNameChar_of_spelling_bare bare
  have notDigit : char.isDigit = false := by
    cases digit : char.isDigit with
    | false => rfl
    | true => simp [spelling, digit, leads] at bare
  simp only [isNameChar, Char.isAlphanum, notDigit, Bool.or_false, Bool.or_eq_true,
    decide_eq_true_eq] at isName
  rcases isName with (letter | hyphen) | underscore
  · exact .inl (by simp [isLead, letter])
  · exact .inr hyphen
  · exact .inl (by simp [isLead, underscore])

/-- Where a digit is not written bare, a character is spelled by a unit that may stand first, unless
it is a hyphen. -/
theorem exists_encodeFrom_eq_cons {place : Place} (leads : place ≠ .inside) (char : Char)
    (rest : Text) : ∃ first more, encodeFrom place (char :: rest) = first :: more ∧
      (isLead first = true ∨ first = '-' ∧ char = '-') := by
  simp only [encodeFrom]
  cases spelled : spelling place char with
  | bare =>
      refine ⟨char, _, rfl, ?_⟩
      rcases isLead_of_spelling_bare leads spelled with lead | hyphen
      · exact .inl lead
      · exact .inr ⟨hyphen, hyphen⟩
  | backslash => exact ⟨'\\', _, rfl, .inl rfl⟩
  | hex => exact ⟨'\\', _, rfl, .inl rfl⟩

theorem startsName_of_isLead {first : Char} (lead : isLead first = true) (more : Text) :
    startsName (first :: more) = true := by
  have notHyphen : first ≠ '-' := by
    rintro rfl
    exact absurd lead (by decide)
  simpa [startsName, notHyphen] using lead

theorem startsName_encode_cons {char : Char} (notHyphen : char ≠ '-') (rest : Text) :
    startsName (encode (char :: rest)) = true := by
  have leads : Place.start ≠ .inside := by decide
  rcases exists_encodeFrom_eq_cons leads char rest with ⟨first, more, spelled, lead | hyphen⟩
  · rw [encode, spelled]
    exact startsName_of_isLead lead more
  · exact absurd hyphen.2 notHyphen

theorem startsName_encode_hyphen_cons (char : Char) (rest : Text) :
    startsName (encode ('-' :: char :: rest)) = true := by
  have leads : Place.afterHyphen ≠ .inside := by decide
  rcases exists_encodeFrom_eq_cons leads char rest with ⟨first, more, spelled, lead | hyphen⟩
  · rw [show encode ('-' :: char :: rest) = '-' :: encodeFrom .afterHyphen (char :: rest) from rfl,
      spelled]
    simp [startsName, lead]
  · rw [show encode ('-' :: char :: rest) = '-' :: encodeFrom .afterHyphen (char :: rest) from rfl,
      spelled, hyphen.1]
    rfl

theorem startsName_encode_iff (name : Text) :
    startsName (encode name) = true ↔ name ≠ [] ∧ name ≠ ['-'] := by
  cases name with
  | nil => simp [encode, encodeFrom, startsName]
  | cons char rest =>
      by_cases isHyphen : char = '-'
      · subst isHyphen
        cases rest with
        | nil => simp [show startsName (encode ['-']) = false from rfl]
        | cons next rest => simp [startsName_encode_hyphen_cons]
      · simp [startsName_encode_cons isHyphen, isHyphen]

/-- An encoded name is an identifier in printable ASCII that spells the name unit by unit and
decodes to it. It starts as an identifier must, except that nothing can be done for the empty name
and the single hyphen. -/
theorem encode_isIdentifier (name : Text) :
    decode (encode name) = name ∧
    (∀ char ∈ encode name, isPrintable char = true) ∧
    Spells (encode name) name ∧
    (startsName (encode name) = true ↔ name ≠ [] ∧ name ≠ ['-']) :=
  ⟨decode_encode name, fun _ => isPrintable_of_mem_encodeFrom, spells_encodeFrom .start name,
    startsName_encode_iff name⟩

/-- Only the star needs a space after its digits: the digit after the hyphen is followed by an
escape. -/
example : encode "-1★2 3" = "-\\31\\2605 2\\ 3" := rfl

end AtomicCss.Identifier
