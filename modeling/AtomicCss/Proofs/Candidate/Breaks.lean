import AtomicCss.Proofs.Candidate.Segments

/-!
# Where a candidate breaks

A candidate that cannot be split is refused together with the part of it that starts with the
segment at fault. That segment can be told from the text alone: all segments before it are sealed,
and the reader, started afresh at its beginning, meets a stray closer or comes to the end of the
candidate with something open, and meets no separator on the way.

`splitFrom_eq_error_iff` says this of one segment, wherever its reader stands, and the main result
follows from it segment by segment.
-/

namespace AtomicCss

namespace Nesting

/-- Whether reading a text meets a closer that closes nothing, and no separator before it. -/
def MeetsStray (state : Nesting) (text : Text) : Prop :=
  ∃ before closer after reached, text = before ++ closer :: after ∧
    state.within? before = some reached ∧ reached.isStray closer = true

/-- Whether reading a text meets neither a stray closer nor a separator, but leaves a bracket, a
parenthesis or a string open at its end. -/
def StaysOpen (state : Nesting) (text : Text) : Prop :=
  ∃ reached, state.within? text = some reached ∧ reached.isComplete = false

/-- Whether a text cannot be read to the end of its first segment. -/
def Breaks (state : Nesting) (text : Text) : Prop :=
  state.MeetsStray text ∨ state.StaysOpen text

variable {state : Nesting} {char : Char} {rest : Text}

theorem breaks_nil_iff : state.Breaks [] ↔ state.isComplete = false := by
  constructor
  · rintro (⟨before, closer, after, reached, splits, -⟩ | ⟨reached, stays, incomplete⟩)
    · simp at splits
    · cases stays
      exact incomplete
  · exact fun incomplete => .inr ⟨state, rfl, incomplete⟩

theorem breaks_of_isStray (stray : state.isStray char = true) : state.Breaks (char :: rest) :=
  .inl ⟨[], char, rest, state, rfl, rfl, stray⟩

/-- A text breaks at its first character, or this character is no separator and what follows it
breaks. -/
theorem breaks_cons_iff : state.Breaks (char :: rest) ↔ state.isStray char = true ∨
    (state.isTopLevel char && char = ':') = false ∧ (state.next char).Breaks rest := by
  constructor
  · rintro (⟨before, closer, after, reached, splits, stays, stray⟩ | ⟨reached, stays, incomplete⟩)
    · cases before with
      | nil =>
          cases stays
          rw [List.nil_append, List.cons.injEq] at splits
          rw [splits.1]
          exact .inl stray
      | cons first before =>
          rw [List.cons_append, List.cons.injEq] at splits
          rcases splits with ⟨rfl, rfl⟩
          rcases within?_cons_of_some stays with ⟨-, notSeparator, continues⟩
          exact .inr ⟨notSeparator, .inl ⟨before, closer, after, reached, rfl, continues, stray⟩⟩
    · rcases within?_cons_of_some stays with ⟨-, notSeparator, continues⟩
      exact .inr ⟨notSeparator, .inr ⟨reached, continues, incomplete⟩⟩
  · rintro (stray | ⟨notSeparator, breaksLater⟩)
    · exact breaks_of_isStray stray
    · cases stray : state.isStray char with
      | true => exact breaks_of_isStray stray
      | false =>
          have goesOn (text : Text) :
              state.within? (char :: text) = (state.next char).within? text :=
            within?_cons stray notSeparator
          rcases breaksLater with
            ⟨before, closer, after, reached, rfl, stays, isStray⟩ | ⟨reached, stays, incomplete⟩
          · exact .inl ⟨char :: before, closer, after, reached, rfl,
              (goesOn before).trans stays, isStray⟩
          · exact .inr ⟨reached, (goesOn rest).trans stays, incomplete⟩

end Nesting

namespace Candidate

theorem map_eq_error_iff {change : Split → Split} {read : Except Text Split} {remainder : Text} :
    read.map change = .error remainder ↔ read = .error remainder := by
  cases read <;> simp [Except.map]

theorem splitFrom_of_breaks {state : Nesting} {start text : Text} (breaks : state.Breaks text) :
    splitFrom state start text = .error start := by
  induction text generalizing state with
  | nil => simp [splitFrom, Nesting.breaks_nil_iff.mp breaks]
  | cons char rest ih =>
      rw [splitFrom]
      rcases Nesting.breaks_cons_iff.mp breaks with stray | ⟨notSeparator, breaksLater⟩
      · rw [if_pos stray]
      · split
        · rfl
        · simp only [notSeparator, Bool.false_eq_true, if_false]
          exact map_eq_error_iff.mpr (ih breaksLater)

/-- Splitting fails in the segment that it starts with, or behind that segment and a separator. -/
theorem splitFrom_eq_error_iff {state : Nesting} {start text remainder : Text} :
    splitFrom state start text = .error remainder ↔
      (remainder = start ∧ state.Breaks text) ∨
        ∃ segment rest, text = segment ++ ':' :: rest ∧ state.within? segment = some .top ∧
          splitFrom .top rest rest = .error remainder := by
  constructor
  · intro refused
    induction text generalizing state with
    | nil =>
        rw [splitFrom] at refused
        split at refused
        · cases refused
        · rename_i incomplete
          cases refused
          exact .inl ⟨rfl, Nesting.breaks_nil_iff.mpr (by simpa using incomplete)⟩
    | cons char rest ih =>
        rw [splitFrom] at refused
        split at refused
        · rename_i stray
          cases refused
          exact .inl ⟨rfl, Nesting.breaks_of_isStray stray⟩
        · rename_i notStray
          split at refused
          · rename_i separator
            simp only [Bool.and_eq_true, decide_eq_true_eq] at separator
            rcases separator with ⟨topLevel, rfl⟩
            have stateTop := Nesting.eq_top_of_isTopLevel topLevel
            exact .inr ⟨[], rest, rfl, congrArg some stateTop, map_eq_error_iff.mp refused⟩
          · rename_i notSeparator
            rw [Bool.not_eq_true] at notStray notSeparator
            rcases ih (map_eq_error_iff.mp refused) with
              ⟨atStart, breaks⟩ | ⟨segment, later, rfl, stays, refusedLater⟩
            · exact .inl ⟨atStart, Nesting.breaks_cons_iff.mpr (.inr ⟨notSeparator, breaks⟩)⟩
            · exact .inr ⟨char :: segment, later, rfl,
                (Nesting.within?_cons notStray notSeparator).trans stays, refusedLater⟩
  · rintro (⟨rfl, breaks⟩ | ⟨segment, rest, rfl, stays, refused⟩)
    · exact splitFrom_of_breaks breaks
    · rw [splitFrom_append_separator stays]
      exact map_eq_error_iff.mpr refused

/-- From the top level, the remainder follows sealed segments, and its own first segment breaks. -/
theorem splitFrom_top_eq_error_iff {text remainder : Text} :
    splitFrom .top text text = .error remainder ↔
      ∃ segments : List Text, (∀ segment ∈ segments, isSealed segment = true) ∧
        text = segments.flatMap (· ++ [':']) ++ remainder ∧ Nesting.top.Breaks remainder := by
  constructor
  · intro refused
    induction lengthEq : text.length using Nat.strongRecOn generalizing text with
    | ind length ih =>
        rcases splitFrom_eq_error_iff.mp refused with
          ⟨rfl, breaks⟩ | ⟨segment, rest, rfl, stays, refusedLater⟩
        · exact ⟨[], by simp, rfl, breaks⟩
        · have shorter : rest.length < length := by
            rw [← lengthEq, List.length_append, List.length_cons]
            omega
          rcases ih rest.length shorter refusedLater rfl with ⟨segments, allSealed, rfl, breaks⟩
          have firstSealed : isSealed segment = true := by simpa [isSealed] using stays
          exact ⟨segment :: segments, by simpa [firstSealed] using allSealed, by simp, breaks⟩
  · rintro ⟨segments, allSealed, rfl, breaks⟩
    induction segments with
    | nil => exact splitFrom_eq_error_iff.mpr (.inl ⟨rfl, breaks⟩)
    | cons segment segments ih =>
        have firstSealed : Nesting.top.within? segment = some .top := by
          simpa [isSealed] using allSealed segment (by simp)
        have others := ih fun other member => allSealed other (by simp [member])
        refine splitFrom_eq_error_iff.mpr (.inr ⟨segment, _, ?_, firstSealed, others⟩)
        simp

/-- A candidate is refused exactly if it has a segment that breaks, behind nothing but sealed
segments. The refusal carries the candidate and the part of it that starts with this segment. -/
theorem split_eq_error_iff (candidate : Text) (refusal : Refusal) :
    split candidate = .error refusal ↔
      ∃ (segments : List Text) (remainder : Text), refusal = .unbalanced candidate remainder ∧
        (∀ segment ∈ segments, isSealed segment = true) ∧
        candidate = segments.flatMap (· ++ [':']) ++ remainder ∧
        (Nesting.top.MeetsStray remainder ∨ Nesting.top.StaysOpen remainder) := by
  constructor
  · intro refused
    rcases split_eq_error_iff_splitFrom.mp refused with ⟨remainder, read, isUnbalanced⟩
    rcases splitFrom_top_eq_error_iff.mp read with ⟨segments, allSealed, splits, breaks⟩
    exact ⟨segments, remainder, isUnbalanced, allSealed, splits, breaks⟩
  · rintro ⟨segments, remainder, isUnbalanced, allSealed, splits, breaks⟩
    have read := splitFrom_top_eq_error_iff.mpr ⟨segments, allSealed, splits, breaks⟩
    exact split_eq_error_iff_splitFrom.mpr ⟨remainder, read, isUnbalanced⟩

end Candidate

end AtomicCss
