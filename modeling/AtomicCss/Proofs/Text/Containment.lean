import AtomicCss.Proofs.Text.Scan

/-!
# Contained texts

A text that becomes the selector of a rule must not end that rule: reading it must meet no live
brace or semicolon, and it must be closed, for otherwise the block after it is read as part of a
string or of an escape. Whether it is so is a matter of passing the text from the outside to the
outside.

Readers start in any state that a reader can be in. Two texts that all of them pass alike can stand
for each other in a longer text.
-/

namespace AtomicCss

/-- Characters that end the selector of a rule, or the rule itself. -/
def isBlockPunctuation (char : Char) : Bool :=
  char = '\x7b' || char = '\x7d' || char = ';'

theorem isPunctuation_isBlockPunctuation : IsPunctuation isBlockPunctuation := by
  intro char written
  simp only [isBlockPunctuation, Bool.or_eq_false_iff, decide_eq_false_iff_not]
  refine ⟨⟨?_, ?_⟩, ?_⟩ <;>
  · rintro rfl
    exact absurd written (by decide)

namespace Quoting

/-- The state after a text, if the text has no live block punctuation. -/
def pass? (state : Quoting) : Text → Option Quoting
  | [] => some state
  | char :: rest =>
      if state.isLive char && isBlockPunctuation char then none else pass? (state.next char) rest

theorem pass?_eq (state : Quoting) (text : Text) :
    state.pass? text =
      if (state.live text).any isBlockPunctuation then none else some (state.readAll text) := by
  induction text generalizing state with
  | nil => rfl
  | cons char rest ih =>
      rw [pass?, live, readAll_cons, ih]
      by_cases isLive : state.isLive char = true
      · cases isPunctuation : isBlockPunctuation char <;> simp [isLive, isPunctuation]
      · simp [isLive]

theorem pass?_append (state : Quoting) (left right : Text) :
    state.pass? (left ++ right) = (state.pass? left).bind (·.pass? right) := by
  induction left generalizing state with
  | nil => rfl
  | cons char left ih =>
      simp only [List.cons_append, pass?]
      split
      · rfl
      · exact ih (state.next char)

theorem isProper_of_pass?_eq_some {state final : Quoting} {text : Text}
    (proper : state.isProper = true) (passes : state.pass? text = some final) :
    final.isProper = true := by
  rw [pass?_eq] at passes
  split at passes
  · cases passes
  · cases passes
    exact isProper_readAll proper text

theorem pass?_eq_some_iff {state final : Quoting} {text : Text} :
    state.pass? text = some final ↔ state.scan isBlockPunctuation text = (final, []) := by
  simp only [pass?_eq, scan, Prod.mk.injEq, List.filter_eq_nil_iff]
  cases punctuation : (state.live text).any isBlockPunctuation with
  | true => simp_all
  | false =>
      rw [List.any_eq_false] at punctuation
      constructor
      · intro passes
        exact ⟨by simpa using passes, punctuation⟩
      · rintro ⟨rfl, -⟩
        rfl

end Quoting

namespace Text

/-- Whether a text can stand before a block without disturbing it. -/
def isContained (text : Text) : Bool :=
  Quoting.outside.pass? text = some .outside

theorem isContained_iff {text : Text} :
    text.isContained = true ↔ Quoting.outside.pass? text = some .outside := by
  simp [isContained]

theorem isContained_eq (text : Text) :
    text.isContained = (text.isClosed && !text.live.any isBlockPunctuation) := by
  simp only [isContained, Quoting.pass?_eq, isClosed, live]
  split
  · rename_i punctuation
    simp [punctuation]
  · rename_i noPunctuation
    simp [noPunctuation]

theorem isContained_iff_isClear {text : Text} :
    text.isContained = true ↔ text.IsClear isBlockPunctuation :=
  isContained_iff.trans Quoting.pass?_eq_some_iff

theorem isContained_append {left right : Text} (leftContained : left.isContained = true)
    (rightContained : right.isContained = true) : (left ++ right).isContained = true := by
  rw [isContained_iff_isClear] at *
  exact leftContained.append rightContained

/-- Whether every reader passes two texts alike. -/
def PassAlike (left right : Text) : Prop :=
  ∀ state : Quoting, state.isProper = true → state.pass? left = state.pass? right

theorem PassAlike.refl (text : Text) : PassAlike text text :=
  fun _ _ => rfl

theorem PassAlike.append {left left' right right' : Text} (lefts : PassAlike left left')
    (rights : PassAlike right right') : PassAlike (left ++ right) (left' ++ right') := by
  intro state proper
  rw [Quoting.pass?_append, Quoting.pass?_append, ← lefts state proper]
  cases passes : state.pass? left with
  | none => rfl
  | some next => exact rights next (Quoting.isProper_of_pass?_eq_some proper passes)

theorem ScanAlike.passAlike {left right : Text} (alike : ScanAlike isBlockPunctuation left right) :
    PassAlike left right := by
  intro state proper
  apply Option.ext
  intro final
  rw [Quoting.pass?_eq_some_iff, Quoting.pass?_eq_some_iff, alike state proper]

theorem PassAlike.isContained_eq {left right : Text} (alike : PassAlike left right) :
    left.isContained = right.isContained := by
  rw [isContained, isContained, alike .outside rfl]

end Text

end AtomicCss
