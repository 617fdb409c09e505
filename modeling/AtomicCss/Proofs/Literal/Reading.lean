import AtomicCss.Literal
import AtomicCss.Proofs.Identifier.Encoding
import AtomicCss.Proofs.Text.Affixes
import AtomicCss.Proofs.Text.Pending
import AtomicCss.Proofs.Text.Scan

/-!
# Reading literals

A string ends at the first of its quotes that no backslash makes inert. A text is a literal if that
is its last character, and what it denotes is what stands between the quotes with the escapes
resolved, which are those of identifiers.

Literals are written with a backslash before every double quote of the value. If the author has put
one there already, the two are read as an escaped backslash and the quote ends the string; and a
backslash at the end of the value takes the quote that should end the string. Without either of
them, the text that is written is a literal, and if the value was a literal it denotes the same.
-/

namespace AtomicCss

namespace Identifier

/-- What reading one character writes and leads to. Whether a backslash is pending afterwards
depends on nothing else than whether one was. -/
theorem exists_decodeFrom_cons (reading : Reading) (char : Char) :
    ∃ (out : Text) (next : Reading),
      (next = .backslash ↔ char = '\\' ∧ reading ≠ .backslash) ∧
      ∀ rest, decodeFrom reading (char :: rest) = out ++ decodeFrom next rest := by
  cases reading with
  | character =>
      by_cases backslash : char = '\\'
      · exact ⟨[], .backslash, by simp [backslash], fun rest => by simp [decodeFrom, backslash]⟩
      · exact ⟨[char], .character, by simp [backslash],
          fun rest => by simp [decodeFrom, backslash]⟩
  | backslash =>
      by_cases hexDigit : char.isHexDigit = true
      · exact ⟨[], .hex 1 (hexValue char), by simp, fun rest => by simp [decodeFrom, hexDigit]⟩
      · exact ⟨[char], .character, by simp, fun rest => by simp [decodeFrom, hexDigit]⟩
  | hex digits value =>
      by_cases continues : (decide (digits < 6) && char.isHexDigit) = true
      · have notBackslash : char ≠ '\\' := by
          rintro rfl
          simp [show Char.isHexDigit '\\' = false from rfl] at continues
        exact ⟨[], .hex (digits + 1) (16 * value + hexValue char), by simp [notBackslash],
          fun rest => by rw [decodeFrom, if_pos continues, List.nil_append]⟩
      · by_cases ends : isTerminator char = true
        · have notBackslash : char ≠ '\\' := by
            rintro rfl
            exact absurd ends (by decide)
          exact ⟨[meant value], .character, by simp [notBackslash],
            fun rest => by rw [decodeFrom, if_neg continues, if_pos ends]; rfl⟩
        · by_cases backslash : char = '\\'
          · exact ⟨[meant value], .backslash, by simp [backslash], fun rest => by
              rw [decodeFrom, if_neg continues, if_neg ends, if_pos backslash]; rfl⟩
          · exact ⟨[meant value, char], .character, by simp [backslash], fun rest => by
              rw [decodeFrom, if_neg continues, if_neg ends, if_neg backslash]; rfl⟩

end Identifier

namespace Literal

open Text Identifier

theorem between?_eq_some_iff {quote : Char} {text body : Text} :
    between? quote text = some body ↔ text = quote :: body ++ [quote] := by
  cases text with
  | nil => simp [between?]
  | cons first rest =>
      by_cases same : first = quote
      · simp [between?, same, before?_eq_some_iff]
      · simp [between?, same]

/-- Whether a string that a quote opens holds this text and ends with the next quote. -/
structure IsBody (quote : Char) (body : Text) : Prop where
  noneLive : EachAfter EscapesNext quote body
  complete : ¬body.EscapesNext

instance (quote : Char) (body : Text) : Decidable (IsBody quote body) :=
  decidable_of_iff (EachAfter EscapesNext quote body ∧ ¬body.EscapesNext)
    ⟨fun both => ⟨both.1, both.2⟩, fun body => ⟨body.noneLive, body.complete⟩⟩

structure IsLiteral (literal : Text) (quote : Char) (body : Text) : Prop where
  isQuote : Quoting.isQuote quote = true
  written : literal = quote :: body ++ [quote]
  isBody : IsBody quote body

/-- Whether a text is a literal, in quotes of either kind, that denotes another text. -/
def Denotes (literal text : Text) : Prop :=
  ∃ quote body, IsLiteral literal quote body ∧ text = decode body

/-- Whether no double quote in a text is escaped. -/
def QuotesBare (text : Text) : Prop :=
  EachAfter (¬EscapesNext ·) '"' text

instance (text : Text) : Decidable (QuotesBare text) :=
  inferInstanceAs (Decidable (EachAfter _ _ _))

/-! ### Readers of literals -/

/-- A reader stays within the string until its quote comes without a pending backslash. -/
theorem readAll_of_noneLive {quote : Char} {text : Text}
    (noneLive : EachAfter EscapesNext quote text) :
    (Quoting.readAll ⟨some quote, false⟩ text).quote = some quote ∧
      Quoting.live ⟨some quote, false⟩ text = [] := by
  induction text using List.reverseRecOn with
  | nil => exact ⟨rfl, rfl⟩
  | append_singleton text char ih =>
      rw [eachAfter_append_singleton_iff] at noneLive
      rcases ih noneLive.1 with ⟨stays, nothing⟩
      have escapes := @escaped_readAll_iff ⟨some quote, false⟩ rfl text
      rw [Quoting.readAll_append, Quoting.live_append, nothing]
      generalize Quoting.readAll ⟨some quote, false⟩ text = state at stays escapes ⊢
      constructor
      · change (state.next char).quote = some quote
        rw [Quoting.next]
        split
        · exact stays
        · rename_i notEscaped
          split
          · exact stays
          · have notQuote : char ≠ quote := by
              rintro rfl
              exact notEscaped (escapes.mpr (noneLive.2 rfl))
            simp [stays, notQuote]
      · simp [Quoting.live, Quoting.isLive, stays]

theorem IsBody.scan {quote : Char} {body : Text} (isBody : IsBody quote body)
    (mark : Char → Bool) :
    Quoting.scan mark ⟨some quote, false⟩ body = (⟨some quote, false⟩, []) := by
  rcases readAll_of_noneLive isBody.noneLive with ⟨stays, nothing⟩
  have notEscaped : (Quoting.readAll ⟨some quote, false⟩ body).escaped = false := by
    rw [← Bool.not_eq_true, escaped_readAll_iff rfl]
    exact isBody.complete
  rw [Quoting.scan, nothing]
  generalize Quoting.readAll ⟨some quote, false⟩ body = state at stays notEscaped ⊢
  rcases state with ⟨string, escaped⟩
  cases stays
  cases notEscaped
  rfl

/-- Nothing in a literal is noticed from outside. -/
theorem isClear_of_isBody {mark : Char → Bool} {body : Text} (isBody : IsBody '"' body) :
    Text.IsClear mark ('"' :: body ++ ['"']) := by
  have opens : Quoting.scan mark .outside ['"'] = (⟨some '"', false⟩, []) := rfl
  rw [Text.IsClear, List.cons_append, ← List.singleton_append, Quoting.scan_append_of_clear opens,
    Quoting.scan_append_of_clear (isBody.scan mark)]
  rfl

/-! ### Guarded text -/

theorem pending_flatMap_guarded (text : Text) : pending (text.flatMap guarded) = text.pending := by
  induction text using List.reverseRecOn with
  | nil => rfl
  | append_singleton text char ih =>
      rw [List.flatMap_append, List.flatMap_singleton, guarded]
      split
      · rename_i isQuote
        subst isQuote
        rw [List.append_cons, pending_append_of_ne (by decide), pending_append_of_ne (by decide)]
      · by_cases backslash : char = '\\'
        · subst backslash
          rw [pending_append_backslash, pending_append_backslash, ih]
        · rw [pending_append_of_ne backslash, pending_append_of_ne backslash]

theorem escapesNext_flatMap_guarded_iff {text : Text} :
    EscapesNext (text.flatMap guarded) ↔ text.EscapesNext := by
  rw [EscapesNext, EscapesNext, pending_flatMap_guarded]

/-- Each double quote is guarded by one backslash more than the text has before it. -/
theorem eachAfter_flatMap_guarded_iff {Good : Text → Prop} {text : Text} :
    EachAfter Good '"' (text.flatMap guarded) ↔
      EachAfter (fun front => Good (front.flatMap guarded ++ ['\\'])) '"' text := by
  induction text using List.reverseRecOn with
  | nil => simp [eachAfter_of_notMem]
  | append_singleton text char ih =>
      rw [List.flatMap_append, List.flatMap_singleton, guarded, eachAfter_append_singleton_iff]
      split
      · rename_i isQuote
        rw [List.append_cons, eachAfter_append_singleton_iff, eachAfter_append_singleton_iff, ih]
        simp [isQuote]
      · rename_i notQuote
        rw [eachAfter_append_singleton_iff, ih]
        simp [notQuote]

theorem isBody_flatMap_guarded_iff {text : Text} :
    IsBody '"' (text.flatMap guarded) ↔ QuotesBare text ∧ ¬text.EscapesNext := by
  have quotes : EachAfter EscapesNext '"' (text.flatMap guarded) ↔ QuotesBare text := by
    rw [eachAfter_flatMap_guarded_iff, QuotesBare]
    simp only [EachAfter, escapesNext_append_singleton, escapesNext_flatMap_guarded_iff, true_and]
  rw [← quotes, ← escapesNext_flatMap_guarded_iff]
  exact ⟨fun body => ⟨body.noneLive, body.complete⟩, fun both => ⟨both.1, both.2⟩⟩

/-- Where no backslash is pending, a double quote is read alike with a backslash and without. -/
theorem decodeFrom_guarded {reading : Reading} {char : Char}
    (bare : char = '"' → reading ≠ .backslash) (rest : Text) :
    decodeFrom reading (guarded char ++ rest) = decodeFrom reading (char :: rest) := by
  rw [guarded]
  split
  · rename_i isQuote
    subst isQuote
    cases reading with
    | character => rfl
    | backslash => exact absurd rfl (bare rfl)
    | hex digits value =>
        have backslashEnds : (decide (digits < 6) && Char.isHexDigit '\\') = false :=
          Bool.and_false _
        simp [decodeFrom, backslashEnds, show isTerminator '\\' = false from rfl,
          show isTerminator '"' = false from rfl, show Char.isHexDigit '"' = false from rfl]
  · rfl

theorem decodeFrom_flatMap_guarded {reading : Reading} {front text : Text}
    (pending : reading = .backslash ↔ front.EscapesNext)
    (bare : EachAfter (fun more => ¬EscapesNext (front ++ more)) '"' text) :
    decodeFrom reading (text.flatMap guarded) = decodeFrom reading text := by
  -- The front grows by what has been read; that the reading agrees with it is the invariant.
  induction text generalizing reading front with
  | nil => rfl
  | cons char rest ih =>
      have charBare : char = '"' → reading ≠ .backslash := by
        rintro rfl atBackslash
        apply bare [] rest rfl
        rw [List.append_nil]
        exact pending.mp atBackslash
      have restBare :
          EachAfter (fun more => ¬EscapesNext (front ++ [char] ++ more)) '"' rest := by
        rintro more back rfl
        rw [List.append_assoc, List.singleton_append]
        exact bare (char :: more) back rfl
      rcases exists_decodeFrom_cons reading char with ⟨out, next, nextPending, reads⟩
      have nextFollows : next = .backslash ↔ EscapesNext (front ++ [char]) := by
        rw [nextPending, escapesNext_append_singleton, ← pending]
      rw [List.flatMap_cons, decodeFrom_guarded charBare, reads, reads, ih nextFollows restBare]

theorem decode_flatMap_guarded {text : Text} (bare : QuotesBare text) :
    decode (text.flatMap guarded) = decode text := by
  have start : Reading.character = .backslash ↔ EscapesNext [] := by decide
  exact decodeFrom_flatMap_guarded start bare

/-! ### Values without backslashes -/

theorem mem_of_between? {quote char : Char} {text body : Text}
    (found : between? quote text = some body) (member : char ∈ body) : char ∈ text := by
  rw [between?_eq_some_iff.mp found]
  simp [member]

theorem mem_of_mem_inside {char : Char} {value : Text} (member : char ∈ inside value) :
    char ∈ value := by
  apply mem_of_mem_trim
  simp only [inside] at member
  cases double : between? '"' value.trim with
  | some body =>
      rw [double] at member
      exact mem_of_between? double member
  | none =>
      cases single : between? '\'' value.trim with
      | some body =>
          rw [double, single] at member
          exact mem_of_between? single member
      | none =>
          rw [double, single] at member
          exact member

theorem isBody_flatMap_guarded {text : Text} (noBackslash : '\\' ∉ text) :
    IsBody '"' (text.flatMap guarded) := by
  refine isBody_flatMap_guarded_iff.mpr ⟨?_, not_escapesNext noBackslash⟩
  rintro front back rfl
  apply not_escapesNext
  intro member
  exact noBackslash (List.mem_append_left _ member)

theorem eachAfter_flatMap_guarded {text : Text} (noBackslash : '\\' ∉ text) :
    EachAfter (·.pending = 1) '"' (text.flatMap guarded) := by
  rw [eachAfter_flatMap_guarded_iff]
  rintro front back rfl
  rw [pending_append_backslash, pending_flatMap_guarded, pending_eq_zero]
  intro member
  exact noBackslash (List.mem_append_left _ member)

/-! ### Literals -/

namespace IsLiteral

variable {value literal body : Text} {quote : Char}

theorem unique {otherBody : Text} {otherQuote : Char} (here : IsLiteral literal quote body)
    (there : IsLiteral literal otherQuote otherBody) : quote = otherQuote ∧ body = otherBody := by
  have same := here.written.symm.trans there.written
  rw [List.cons_append, List.cons_append, List.cons.injEq] at same
  exact ⟨same.1, (List.append_inj' same.2 rfl).1⟩

/-- The value of a literal is taken without its quotes, whichever they are. -/
theorem inside_eq (isLiteral : IsLiteral value.trim quote body) : inside value = body := by
  have found : between? quote value.trim = some body :=
    between?_eq_some_iff.mpr isLiteral.written
  have isQuote := isLiteral.isQuote
  simp only [Quoting.isQuote, Bool.or_eq_true, decide_eq_true_eq] at isQuote
  rcases isQuote with rfl | rfl
  · have notDouble : between? '"' value.trim = none := by
      rw [isLiteral.written]
      rfl
    rw [inside, notDouble, found]
    rfl
  · rw [inside, found]
    rfl

end IsLiteral

theorem isLiteral_ofValue_iff {value : Text} {quote : Char} {body : Text} :
    IsLiteral (ofValue value) quote body ↔
      quote = '"' ∧ body = (inside value).flatMap guarded ∧
        QuotesBare (inside value) ∧ ¬(inside value).EscapesNext := by
  rw [← isBody_flatMap_guarded_iff]
  constructor
  · rintro ⟨-, written, isBody⟩
    rw [ofValue, List.cons_append, List.cons_append, List.cons.injEq] at written
    rcases written with ⟨rfl, rest⟩
    rcases List.append_inj' rest rfl with ⟨rfl, -⟩
    exact ⟨rfl, rfl, isBody⟩
  · rintro ⟨rfl, rfl, isBody⟩
    exact ⟨rfl, rfl, isBody⟩

/-- What is written for a value is a literal exactly if no double quote of the value is escaped and
no backslash is pending at its end. If the value is a literal itself, the former is enough, and what
is written then denotes the same; otherwise it denotes nothing. -/
theorem ofValue_isLiteral_iff (value : Text) :
    (ofValue value).head? = some '"' ∧
    ((∃ body, IsLiteral (ofValue value) '"' body) ↔
      QuotesBare (inside value) ∧ ¬(inside value).EscapesNext) ∧
    ∀ quote body, IsLiteral value.trim quote body →
      (QuotesBare body → ∀ text, Denotes value.trim text → Denotes (ofValue value) text) ∧
      (¬QuotesBare body → ∀ text, ¬Denotes (ofValue value) text) := by
  refine ⟨rfl, ?_, ?_⟩
  · constructor
    · rintro ⟨body, isLiteral⟩
      exact (isLiteral_ofValue_iff.mp isLiteral).2.2
    · intro safe
      exact ⟨_, isLiteral_ofValue_iff.mpr ⟨rfl, rfl, safe⟩⟩
  · intro quote body isLiteral
    have insideEq := isLiteral.inside_eq
    constructor
    · rintro bare text ⟨otherQuote, otherBody, otherLiteral, rfl⟩
      rcases isLiteral.unique otherLiteral with ⟨rfl, rfl⟩
      refine ⟨'"', body.flatMap guarded, ?_, (decode_flatMap_guarded bare).symm⟩
      apply isLiteral_ofValue_iff.mpr
      rw [insideEq]
      exact ⟨rfl, rfl, bare, isLiteral.isBody.complete⟩
    · rintro notBare text ⟨otherQuote, otherBody, otherLiteral, -⟩
      have written := isLiteral_ofValue_iff.mp otherLiteral
      rw [insideEq] at written
      exact notBare written.2.2.1

/-- In single quotes, an escaped single quote and two bare double quotes. -/
theorem ofValue_isLiteral_singleQuotes :
    ofValue " 'it\\'s \"so\"'" = "\"it\\'s \\\"so\\\"\"" ∧
    (∃ body, IsLiteral (ofValue " 'it\\'s \"so\"'") '"' body) ∧
    Denotes (trim " 'it\\'s \"so\"'") "it's \"so\"" ∧
    Denotes (ofValue " 'it\\'s \"so\"'") "it's \"so\"" := by
  have isLiteral : IsLiteral (trim " 'it\\'s \"so\"'") '\'' "it\\'s \"so\"" :=
    ⟨rfl, rfl, by decide⟩
  have denotes : Denotes (trim " 'it\\'s \"so\"'") "it's \"so\"" :=
    ⟨'\'', "it\\'s \"so\"", isLiteral, rfl⟩
  rcases ofValue_isLiteral_iff " 'it\\'s \"so\"'" with ⟨-, written, keeps⟩
  exact ⟨rfl, written.mpr (by decide), denotes, (keeps _ _ isLiteral).1 (by decide) _ denotes⟩

/-- A literal in double quotes with an escaped one inside is written with two backslashes before
it, and ends there; and a backslash at the end of a value takes the quote that should end its
literal. -/
theorem ofValue_not_isLiteral_escapedQuote :
    Denotes (trim "\"a\\\"b\"") "a\"b" ∧
    ofValue "\"a\\\"b\"" = "\"a\\\\\"b\"" ∧
    (¬∃ body, IsLiteral (ofValue "\"a\\\"b\"") '"' body) ∧
    (∀ text, ¬Denotes (ofValue "\"a\\\"b\"") text) ∧
    ofValue "a\\" = "\"a\\\"" ∧
    ¬∃ body, IsLiteral (ofValue "a\\") '"' body := by
  have denotes : Denotes (trim "\"a\\\"b\"") "a\"b" :=
    ⟨'"', "a\\\"b", ⟨rfl, rfl, by decide⟩, rfl⟩
  have notLiteral : ∀ quote body, ¬IsLiteral (ofValue "\"a\\\"b\"") quote body := by
    intro quote body isLiteral
    exact absurd (isLiteral_ofValue_iff.mp isLiteral).2.2.1 (by decide)
  have notClosed : ∀ body, ¬IsLiteral (ofValue "a\\") '"' body := by
    intro body isLiteral
    exact (isLiteral_ofValue_iff.mp isLiteral).2.2.2 (by decide)
  refine ⟨denotes, rfl, ?_, ?_, rfl, ?_⟩
  · rintro ⟨body, isLiteral⟩
    exact notLiteral '"' body isLiteral
  · rintro text ⟨quote, body, isLiteral, -⟩
    exact notLiteral quote body isLiteral
  · rintro ⟨body, isLiteral⟩
    exact notClosed body isLiteral

end Literal

end AtomicCss
