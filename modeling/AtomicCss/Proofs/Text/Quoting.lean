import AtomicCss.Text.Blank
import AtomicCss.Text.Nesting

/-!
# What readers remember

How the state of a reader depends on the text that it has read. Most characters are plain: they end
an escape, if one is pending, and are otherwise unnoticed.
-/

namespace AtomicCss

/-- Characters that a string may hold and that neither open nor close one. -/
def isPlain (char : Char) : Bool :=
  char != '\\' && !Quoting.isQuote char

namespace Quoting

theorem eq_outside {state : Quoting} (noQuote : state.quote = none)
    (notEscaped : state.escaped = false) : state = outside := by
  rcases state with ⟨quote, escaped⟩
  cases noQuote
  cases notEscaped
  rfl

/-- A character can only be live where no string is open and no backslash is pending. -/
theorem eq_outside_of_isLive {state : Quoting} {char : Char} (live : state.isLive char = true) :
    state = outside := by
  simp only [isLive, Bool.and_eq_true, Bool.not_eq_true', Option.isNone_iff_eq_none] at live
  exact eq_outside live.1.1.2 live.1.1.1

/-- Whether a reader can be in a state: only quotes open strings. -/
def isProper (state : Quoting) : Bool :=
  state.quote.all isQuote

theorem readAll_cons (state : Quoting) (char : Char) (rest : Text) :
    state.readAll (char :: rest) = (state.next char).readAll rest := rfl

theorem readAll_append (state : Quoting) (left right : Text) :
    state.readAll (left ++ right) = (state.readAll left).readAll right :=
  List.foldl_append

theorem isProper_next {state : Quoting} (proper : state.isProper = true) (char : Char) :
    (state.next char).isProper = true := by
  simp only [next]
  split
  · exact proper
  · split
    · exact proper
    · split
      · split
        · rfl
        · exact proper
      · split
        · rename_i quote
          simpa [isProper] using quote
        · exact proper

theorem isProper_readAll {state : Quoting} (proper : state.isProper = true) (text : Text) :
    (state.readAll text).isProper = true := by
  induction text generalizing state with
  | nil => exact proper
  | cons char rest ih => exact ih (isProper_next proper char)

/-- A plain character ends an escape and does nothing else. -/
theorem next_of_isPlain {state : Quoting} {char : Char} (proper : state.isProper = true)
    (plain : isPlain char = true) : state.next char = ⟨state.quote, false⟩ := by
  rcases state with ⟨quote, escaped⟩
  simp only [isPlain, Bool.and_eq_true, bne_iff_ne, ne_eq, Bool.not_eq_true'] at plain
  rcases plain with ⟨notBackslash, notQuote⟩
  cases escaped with
  | true => rfl
  | false =>
      cases quote with
      | none => simp [next, notBackslash, notQuote]
      | some quote =>
          have different : char ≠ quote := by
            rintro rfl
            simp [isProper, notQuote] at proper
          simp [next, notBackslash, different]

theorem quote_readAll_of_plain {state : Quoting} {text : Text} (proper : state.isProper = true)
    (plain : ∀ char ∈ text, isPlain char = true) : (state.readAll text).quote = state.quote := by
  induction text generalizing state with
  | nil => rfl
  | cons char rest ih =>
      have charPlain := plain char (by simp)
      have others := ih (isProper_next proper char)
        (fun other member => plain other (by simp [member]))
      rw [next_of_isPlain proper charPlain] at others
      rw [readAll_cons, next_of_isPlain proper charPlain, others]

theorem readAll_of_plain {quote : Option Char} {text : Text}
    (proper : isProper ⟨quote, false⟩ = true) (plain : ∀ char ∈ text, isPlain char = true) :
    readAll ⟨quote, false⟩ text = ⟨quote, false⟩ := by
  induction text with
  | nil => rfl
  | cons char rest ih =>
      rw [readAll_cons, next_of_isPlain proper (plain char (by simp))]
      exact ih (fun other member => plain other (by simp [member]))

/-- Only a backslash makes the next character inert. -/
theorem escaped_next (state : Quoting) {char : Char} (notBackslash : char ≠ '\\') :
    (state.next char).escaped = false := by
  simp only [next, notBackslash]
  split
  · rfl
  · rename_i notEscaped
    rw [Bool.not_eq_true] at notEscaped
    cases state.quote <;> grind [outside]

theorem escaped_readAll {state : Quoting} {text : Text} (notEscaped : state.escaped = false)
    (noBackslash : '\\' ∉ text) : (state.readAll text).escaped = false := by
  induction text generalizing state with
  | nil => exact notEscaped
  | cons char rest ih =>
      simp only [List.mem_cons, not_or] at noBackslash
      exact ih (escaped_next state (Ne.symm noBackslash.1)) noBackslash.2

end Quoting

theorem Nesting.quoting_next (state : Nesting) (char : Char) :
    (state.next char).quoting = state.quoting.next char := by
  simp only [next]
  repeat' split
  all_goals rfl

theorem isPlain_of_isBlank {char : Char} (blank : isBlank char = true) : isPlain char = true := by
  simp only [isPlain, Quoting.isQuote, Bool.and_eq_true, bne_iff_ne, ne_eq, Bool.not_eq_true',
    Bool.or_eq_false_iff, decide_eq_false_iff_not]
  refine ⟨?_, ?_, ?_⟩ <;>
  · rintro rfl
    exact absurd blank (by decide)

end AtomicCss
