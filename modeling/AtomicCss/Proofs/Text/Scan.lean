import AtomicCss.Proofs.Text.Quoting

/-!
# Scanning for marks

What is asked of a text outside its strings and escapes is asked of some of its live characters:
the braces in it, say, or the brackets. These are the *marks* of the question. A scan reads a text
and notes the marks that it meets, so that two texts with the same scan from every state can stand
for each other in a longer text.

Names and attribute clauses are written with characters that no question is about. For such marks
they are clear: a reader passes them without noting anything.
-/

namespace AtomicCss

namespace Quoting

/-- Where a reader stands after a text, and the live marks that it has met. -/
def scan (mark : Char → Bool) (state : Quoting) (text : Text) : Quoting × Text :=
  (state.readAll text, (state.live text).filter mark)

variable {mark : Char → Bool}

theorem live_append (state : Quoting) (left right : Text) :
    state.live (left ++ right) = state.live left ++ (state.readAll left).live right := by
  induction left generalizing state with
  | nil => rfl
  | cons char left ih =>
      simp only [List.cons_append, live, readAll_cons, ih]
      split <;> rfl

theorem mem_of_mem_live {state : Quoting} {text : Text} {char : Char}
    (member : char ∈ state.live text) : char ∈ text := by
  induction text generalizing state with
  | nil => exact member
  | cons first rest ih =>
      simp only [live] at member
      split at member
      · rcases List.mem_cons.mp member with rfl | member
        · exact List.mem_cons_self
        · exact List.mem_cons_of_mem first (ih member)
      · exact List.mem_cons_of_mem first (ih member)

theorem scan_append {state next : Quoting} {left marks : Text}
    (first : state.scan mark left = (next, marks)) (right : Text) :
    state.scan mark (left ++ right) =
      ((next.scan mark right).1, marks ++ (next.scan mark right).2) := by
  simp only [scan, Prod.mk.injEq] at first
  rcases first with ⟨rfl, rfl⟩
  simp only [scan, readAll_append, live_append, List.filter_append]

theorem scan_append_of_clear {state next : Quoting} {left : Text}
    (clear : state.scan mark left = (next, [])) (right : Text) :
    state.scan mark (left ++ right) = next.scan mark right :=
  scan_append clear right

theorem scan_cons_of_unmarked {char : Char} (unmarked : mark char = false) (state : Quoting)
    (rest : Text) : state.scan mark (char :: rest) = (state.next char).scan mark rest := by
  simp only [scan, readAll_cons, live]
  split
  · rw [List.filter_cons_of_neg (by simp [unmarked])]
  · rfl

theorem scan_cons_congr {state : Quoting} {char : Char} {left right : Text}
    (alike : (state.next char).scan mark left = (state.next char).scan mark right) :
    state.scan mark (char :: left) = state.scan mark (char :: right) := by
  have first : state.scan mark [char] = (state.next char, (state.scan mark [char]).2) := rfl
  rw [← List.singleton_append, scan_append first, alike, ← scan_append first,
    List.singleton_append]

theorem scan_replicate {char : Char} (unmarked : mark char = false) (state : Quoting) (count : Nat) :
    state.scan mark (List.replicate count char) =
      (state.readAll (List.replicate count char), []) := by
  have noMarks : (state.live (List.replicate count char)).filter mark = [] := by
    rw [List.filter_eq_nil_iff]
    intro other member
    rw [List.eq_of_mem_replicate (mem_of_mem_live member), unmarked]
    exact Bool.false_ne_true
  rw [scan, noMarks]

/-- A backslash and the character after it are passed, whatever that character is. -/
theorem scan_escaped (quote : Option Char) (char : Char) (rest : Text) :
    scan mark ⟨quote, false⟩ ('\\' :: char :: rest) = scan mark ⟨quote, false⟩ rest := by
  cases quote <;> simp [scan, readAll_cons, live, next, isLive]

theorem scan_of_plain {quote : Option Char} {text : Text} (proper : isProper ⟨quote, false⟩ = true)
    (plain : ∀ char ∈ text, isPlain char = true ∧ mark char = false) :
    scan mark ⟨quote, false⟩ text = (⟨quote, false⟩, []) := by
  have noMarks : (live ⟨quote, false⟩ text).filter mark = [] := by
    rw [List.filter_eq_nil_iff]
    intro char member
    simp [(plain char (mem_of_mem_live member)).2]
  rw [scan, noMarks, readAll_of_plain proper (fun char member => (plain char member).1)]

end Quoting

/-- Whether no mark is blank or a character that names and attribute clauses are written with. -/
def IsPunctuation (mark : Char → Bool) : Prop :=
  ∀ char, isNameChar char = true ∨ isBlank char = true ∨ char = '=' → mark char = false

theorem isPlain_of_isNameChar {char : Char} (nameChar : isNameChar char = true) :
    isPlain char = true := by
  simp only [isPlain, Quoting.isQuote, Bool.and_eq_true, bne_iff_ne, ne_eq, Bool.not_eq_true',
    Bool.or_eq_false_iff, decide_eq_false_iff_not]
  refine ⟨?_, ?_, ?_⟩ <;>
  · rintro rfl
    exact absurd nameChar (by decide)

namespace Text

variable {mark : Char → Bool}

theorem live_append (left right : Text) :
    live (left ++ right) = left.live ++ (Quoting.outside.readAll left).live right :=
  Quoting.live_append Quoting.outside left right

/-- Whether a text can be put anywhere outside strings without being noticed. -/
def IsClear (mark : Char → Bool) (text : Text) : Prop :=
  Quoting.outside.scan mark text = (.outside, [])

theorem isClear_iff {text : Text} :
    text.IsClear mark ↔ text.isClosed = true ∧ text.live.filter mark = [] := by
  simp only [IsClear, Quoting.scan, Prod.mk.injEq, isClosed, decide_eq_true_eq, live]

theorem IsClear.append {left right : Text} (leftClear : IsClear mark left)
    (rightClear : IsClear mark right) : IsClear mark (left ++ right) :=
  (Quoting.scan_append_of_clear leftClear right).trans rightClear

theorem isClear_of_isNameChar (punctuation : IsPunctuation mark) {text : Text}
    (name : ∀ char ∈ text, isNameChar char = true) : IsClear mark text := by
  apply Quoting.scan_of_plain rfl
  intro char member
  exact ⟨isPlain_of_isNameChar (name char member), punctuation char (.inl (name char member))⟩

/-- Whether every reader scans two texts alike. -/
def ScanAlike (mark : Char → Bool) (left right : Text) : Prop :=
  ∀ state : Quoting, state.isProper = true → state.scan mark left = state.scan mark right

namespace ScanAlike

theorem refl (text : Text) : ScanAlike mark text text :=
  fun _ _ => rfl

theorem append {left left' right right' : Text} (lefts : ScanAlike mark left left')
    (rights : ScanAlike mark right right') : ScanAlike mark (left ++ right) (left' ++ right') := by
  intro state proper
  have rest := rights (state.readAll left) (Quoting.isProper_readAll proper left)
  rw [Quoting.scan_append rfl, Quoting.scan_append (lefts state proper).symm, rest]

theorem of_unmarked {left right : Char} (leftPlain : isPlain left = true)
    (rightPlain : isPlain right = true) (leftUnmarked : mark left = false)
    (rightUnmarked : mark right = false) : ScanAlike mark [left] [right] := by
  intro state proper
  rw [Quoting.scan_cons_of_unmarked leftUnmarked, Quoting.scan_cons_of_unmarked rightUnmarked,
    Quoting.next_of_isPlain proper leftPlain, Quoting.next_of_isPlain proper rightPlain]

end ScanAlike

end Text

end AtomicCss
