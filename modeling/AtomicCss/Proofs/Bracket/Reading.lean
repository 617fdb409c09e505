import AtomicCss.Bracket.Content
import AtomicCss.Proofs.Text.Affixes
import AtomicCss.Proofs.Text.Scan

/-!
# Reading what a bracket stands for

Unescaping takes backslashes away, but only in front of underscores and brackets, which no reader
remembers: a reader is in the same state after the inside of a bracket and after the text that it
stands for, and has met the same live characters, underscores, brackets and spaces apart. Trimming
that text can leave a backslash pending, if the blank that it made inert is taken away, and can
leave nothing else.
-/

namespace AtomicCss

namespace Quoting

theorem readAll_replicate_succ (state : Quoting) (count : Nat) (char : Char) :
    state.readAll (List.replicate (count + 1) char) =
      (state.readAll (List.replicate count char)).next char := by
  rw [List.replicate_succ', readAll_append]
  rfl

theorem quote_readAll_backslashes (state : Quoting) (count : Nat) :
    (state.readAll (List.replicate count '\\')).quote = state.quote := by
  induction count with
  | zero => rfl
  | succ count ih =>
      rw [readAll_replicate_succ, ← ih]
      simp only [next]
      split <;> rfl

/-- Backslashes are never live. -/
theorem scan_cons_backslash {mark : Char → Bool} (state : Quoting) (rest : Text) :
    state.scan mark ('\\' :: rest) = (state.next '\\').scan mark rest := by
  simp [scan, readAll_cons, live, isLive]

theorem scan_backslashes {mark : Char → Bool} (state : Quoting) (count : Nat) :
    state.scan mark (List.replicate count '\\') =
      (state.readAll (List.replicate count '\\'), []) := by
  induction count generalizing state with
  | zero => rfl
  | succ count ih =>
      rw [List.replicate_succ, scan_cons_backslash, ih, readAll_cons]

end Quoting

namespace Bracket

theorem inner?_eq_some_iff {text inside : Text} :
    inner? text = some inside ↔ text = '[' :: inside ++ [']'] := by
  cases text with
  | nil => simp [inner?]
  | cons char rest =>
      by_cases opens : char = '['
      · subst opens
        simp [inner?, Text.before?_eq_some_iff]
      · simp [inner?, opens]

theorem inner?_eq_none {text : Text} (notBracketed : ¬['['] <+: text) :
    inner? text = none := by
  rw [Option.eq_none_iff_forall_ne_some]
  intro inside found
  rw [inner?_eq_some_iff] at found
  exact notBracketed ⟨inside ++ [']'], found.symm⟩

theorem filled?_eq_none {text : Text} (notBracketed : ¬['['] <+: text) : filled? text = none := by
  rw [filled?, inner?_eq_none notBracketed]

open Quoting

/-- Characters that unescaping writes for others, or makes live or inert. -/
def isAffected (char : Char) : Bool :=
  isEscapable char || char = ' '

theorem isPlain_of_isAffected {char : Char} (affected : isAffected char = true) :
    isPlain char = true := by
  simp only [isAffected, isEscapable, Bool.or_eq_true, decide_eq_true_eq] at affected
  rcases affected with ((rfl | rfl) | rfl) | rfl <;> rfl

/-- A reader that stands in no escape before some backslashes stands in none after an affected
character behind them, however many they are, and has met no mark. -/
theorem scan_backslashes_affected {mark : Char → Bool}
    (unmarked : ∀ char, isAffected char = true → mark char = false) {state : Quoting}
    (proper : state.isProper = true) (notEscaped : state.escaped = false) (count : Nat)
    {char : Char} (affected : isAffected char = true) (rest : Text) :
    (state.readAll (List.replicate count '\\')).scan mark (char :: rest) =
      state.scan mark rest := by
  have afterCount := isProper_readAll proper (List.replicate count '\\')
  have same : state = ⟨state.quote, false⟩ := by rw [← notEscaped]
  rw [scan_cons_of_unmarked (unmarked char affected),
    next_of_isPlain afterCount (isPlain_of_isAffected affected), quote_readAll_backslashes, ← same]

/-- The backslashes that are held back count as read. -/
theorem scan_unescapeFrom {mark : Char → Bool}
    (unmarked : ∀ char, isAffected char = true → mark char = false) {state : Quoting}
    (proper : state.isProper = true) (notEscaped : state.escaped = false) (pending : Nat)
    (text : Text) :
    state.scan mark (unescapeFrom pending text) =
      (state.readAll (List.replicate pending '\\')).scan mark text := by
  induction text generalizing state pending with
  | nil => exact scan_backslashes state pending
  | cons char rest ih =>
      have afterPending := isProper_readAll proper (List.replicate pending '\\')
      by_cases backslash : char = '\\'
      · subst backslash
        rw [scan_cons_backslash, ← readAll_replicate_succ]
        exact ih proper notEscaped (pending + 1)
      · by_cases escapable : isEscapable char = true
        · -- Of the backslashes half are kept, but none is pending after the character.
          have affected : isAffected char = true := by simp [isAffected, escapable]
          rw [unescapeFrom, if_neg backslash, if_pos escapable]
          generalize meantEq :
            (if (char = '_' && pending % 2 = 0) = true then ' ' else char) = meant
          have meantAffected : isAffected meant = true := by
            rw [← meantEq]
            split
            · rfl
            · exact affected
          rw [scan_append_of_clear (scan_backslashes state (pending / 2)),
            scan_backslashes_affected unmarked proper notEscaped _ meantAffected,
            scan_backslashes_affected unmarked proper notEscaped _ affected]
          exact ih proper notEscaped 0
        · rw [unescapeFrom, if_neg backslash, if_neg escapable,
            scan_append_of_clear (scan_backslashes state pending)]
          apply scan_cons_congr
          exact ih (isProper_next afterPending char) (escaped_next _ backslash) 0

theorem scan_unescape {mark : Char → Bool}
    (unmarked : ∀ char, isAffected char = true → mark char = false) (text : Text) :
    outside.scan mark (unescape text) = outside.scan mark text :=
  scan_unescapeFrom unmarked rfl rfl 0 text

theorem readAll_unescape (text : Text) :
    outside.readAll (unescape text) = outside.readAll text :=
  congrArg Prod.fst (@scan_unescape (fun _ => false) (fun _ _ => rfl) text)

theorem isClosed_unescape (text : Text) : (unescape text).isClosed = text.isClosed := by
  rw [Text.isClosed, Text.isClosed, readAll_unescape]

/-- Unescaping writes no backslash that was not there. -/
theorem noBackslash_unescape {text : Text} (noBackslash : '\\' ∉ text) :
    '\\' ∉ unescape text := by
  rw [unescape]
  induction text with
  | nil => simp [unescapeFrom]
  | cons char rest ih =>
      simp only [List.mem_cons, not_or] at noBackslash
      have others := ih noBackslash.2
      simp only [unescapeFrom, Ne.symm noBackslash.1, if_false]
      split
      · split
        · simpa using others
        · simpa [noBackslash.1] using others
      · simpa [noBackslash.1] using others

/-- Unescaping leaves a text alone that has nothing to unescape. -/
theorem unescape_eq_self {text : Text}
    (plain : ∀ char ∈ text, char ≠ '\\' ∧ isEscapable char = false) : unescape text = text := by
  rw [unescape]
  induction text with
  | nil => rfl
  | cons char rest ih =>
      rcases plain char List.mem_cons_self with ⟨notBackslash, notEscapable⟩
      have others := ih (fun other member => plain other (List.mem_cons_of_mem char member))
      simp [unescapeFrom, notBackslash, notEscapable, others]

/-- Without backslashes, unescaping only writes spaces for underscores. -/
theorem scanAlike_unescape {mark : Char → Bool} (punctuation : IsPunctuation mark) {text : Text}
    (noBackslash : '\\' ∉ text) : Text.ScanAlike mark (unescape text) text := by
  rw [unescape]
  induction text with
  | nil => exact .refl []
  | cons char rest ih =>
      simp only [List.mem_cons, not_or] at noBackslash
      have others := ih noBackslash.2
      simp only [unescapeFrom, Ne.symm noBackslash.1, if_false]
      by_cases underscore : char = '_'
      · subst underscore
        have spaceUnmarked := punctuation ' ' (.inr (.inl rfl))
        have underscoreUnmarked := punctuation '_' (.inl rfl)
        exact (Text.ScanAlike.of_unmarked rfl rfl spaceUnmarked underscoreUnmarked).append others
      · have kept := (Text.ScanAlike.refl [char]).append others
        split <;> simpa [underscore] using kept

theorem content_eq_fragment {inside fragment : Text} (holds : content inside = .fragment fragment) :
    fragment = Fragment.spaceCombinators (unescape inside).trim := by
  simp only [content] at holds
  split at holds
  · cases holds
  · split at holds
    · cases holds
      rfl
    · cases holds

end Bracket

namespace Text

open Quoting

theorem isClosed_trim_iff {text : Text} (closed : text.isClosed = true) :
    text.trim.isClosed = true ↔ (outside.readAll text.trim).escaped = false := by
  rcases exists_eq_append_trim_append text with ⟨front, back, splits, frontBlank, backBlank⟩
  have frontRead : outside.readAll front = outside :=
    readAll_of_plain rfl (fun char member => isPlain_of_isBlank (frontBlank char member))
  have proper : (outside.readAll text.trim).isProper = true := isProper_readAll rfl text.trim
  have backRead := quote_readAll_of_plain proper
    (fun char member => isPlain_of_isBlank (backBlank char member))
  rw [isClosed, splits, readAll_append, readAll_append, frontRead, decide_eq_true_eq] at closed
  rw [closed] at backRead
  rw [isClosed, decide_eq_true_eq]
  constructor
  · intro trimClosed
    rw [trimClosed]
    rfl
  · exact eq_outside backRead.symm

theorem marks_trim {mark : Char → Bool} (punctuation : IsPunctuation mark) (text : Text) :
    text.trim.live.filter mark = text.live.filter mark := by
  have noMarks {state : Quoting} {blanks : Text} (blank : ∀ char ∈ blanks, isBlank char = true) :
      (state.live blanks).filter mark = [] := by
    rw [List.filter_eq_nil_iff]
    intro char member
    have charBlank := blank char (mem_of_mem_live member)
    simp [punctuation char (.inr (.inl charBlank))]
  rcases exists_eq_append_trim_append text with ⟨front, back, splits, frontBlank, backBlank⟩
  have frontRead : outside.readAll front = outside :=
    readAll_of_plain rfl (fun char member => isPlain_of_isBlank (frontBlank char member))
  have parts : text.live.filter mark = (front ++ text.trim ++ back).live.filter mark := by
    rw [← splits]
  rw [parts, live_append, live_append, frontRead, List.filter_append, List.filter_append, live, live,
    noMarks frontBlank, noMarks backBlank, List.append_nil, List.nil_append]

end Text

end AtomicCss
