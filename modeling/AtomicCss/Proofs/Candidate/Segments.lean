import AtomicCss.Candidate
import AtomicCss.Proofs.Text.Quoting

/-!
# Sealed segments

Whether a text can be a segment of a candidate is decided by the text alone: the reader of
candidates, started at its beginning, must neither meet a stray closer nor a separator, and at its
end nothing may be open or pending, for otherwise the colon after the segment would not separate.
The last segment is followed by nothing, so a backslash may be pending there.

The main result is that splitting accepts exactly the texts that are joined from such segments by
colons, and finds these segments. It rests on `splitFrom_append_separator`, which takes one sealed
segment off the front and holds for refused candidates as well.
-/

namespace AtomicCss

namespace Nesting

/-- The nesting after a text that lies within one segment, so that reading it meets neither a stray
closer nor a separator. -/
def within? (state : Nesting) : Text → Option Nesting
  | [] => some state
  | char :: rest =>
      if state.isStray char || state.isTopLevel char && char = ':' then none
      else within? (state.next char) rest

theorem eq_top_of_isTopLevel {state : Nesting} {char : Char}
    (topLevel : state.isTopLevel char = true) : state = top := by
  rcases state with ⟨quoting, brackets, parens⟩
  simp only [isTopLevel, Bool.and_eq_true, decide_eq_true_eq] at topLevel
  rcases topLevel with ⟨⟨live, noBrackets⟩, noParens⟩
  have quotingOutside := Quoting.eq_outside_of_isLive live
  subst quotingOutside noBrackets noParens
  rfl

theorem within?_cons_of_some {state final : Nesting} {char : Char} {rest : Text}
    (stays : state.within? (char :: rest) = some final) :
    state.isStray char = false ∧ (state.isTopLevel char && char = ':') = false ∧
      (state.next char).within? rest = some final := by
  simp only [within?] at stays
  split at stays
  · exact absurd stays (by simp)
  · rename_i continues
    simp only [Bool.or_eq_true, not_or, Bool.not_eq_true] at continues
    exact ⟨continues.1, continues.2, stays⟩

theorem within?_cons {state : Nesting} {char : Char} {rest : Text}
    (notStray : state.isStray char = false)
    (notSeparator : (state.isTopLevel char && char = ':') = false) :
    state.within? (char :: rest) = (state.next char).within? rest := by
  simp [within?, notStray, notSeparator]

theorem quoting_within? {state final : Nesting} {text : Text}
    (stays : state.within? text = some final) : final.quoting = state.quoting.readAll text := by
  induction text generalizing state with
  | nil =>
      cases stays
      rfl
  | cons char rest ih =>
      rcases within?_cons_of_some stays with ⟨-, -, continues⟩
      rw [ih continues, quoting_next, Quoting.readAll_cons]

end Nesting

namespace Candidate

/-- Whether a text can stand before a separator of a candidate. -/
def isSealed (segment : Text) : Bool :=
  Nesting.top.within? segment = some Nesting.top

/-- Whether a text can be the last segment of a candidate. -/
def isTail (segment : Text) : Bool :=
  (Nesting.top.within? segment).any Nesting.isComplete

theorem isClosed_of_isSealed {segment : Text} (whole : isSealed segment = true) :
    segment.isClosed = true := by
  rw [isSealed, decide_eq_true_eq] at whole
  rw [Text.isClosed, decide_eq_true_eq]
  exact (Nesting.quoting_within? whole).symm

/-- What stands in a bracket that is a whole segment is closed, unless it ends in a backslash. -/
theorem isClosed_inside {inside : Text} (noBackslash : '\\' ∉ inside)
    (whole : isSealed ('[' :: inside ++ [']']) = true) : inside.isClosed = true := by
  have closed := isClosed_of_isSealed whole
  rw [Text.isClosed, decide_eq_true_eq, Quoting.readAll_append] at closed
  change (Quoting.outside.readAll inside).next ']' = .outside at closed
  have proper : (Quoting.outside.readAll inside).isProper = true :=
    Quoting.isProper_readAll rfl inside
  rw [Quoting.next_of_isPlain proper rfl] at closed
  rw [Text.isClosed, decide_eq_true_eq]
  apply Quoting.eq_outside
  · exact congrArg Quoting.quote closed
  · exact Quoting.escaped_readAll rfl noBackslash

/-- The split of a text that has one more segment in front. -/
def Split.prepend (segment : Text) (split : Split) : Split :=
  { split with variants := segment :: split.variants }

theorem Split.push_prepend (char : Char) (segment : Text) (split : Split) :
    (split.prepend segment).push char = split.prepend (char :: segment) := rfl

/-- A segment that ends sealed is split off whatever follows it, whether that can be split or
not. -/
theorem splitFrom_append_separator {state : Nesting} {start segment rest : Text}
    (stays : state.within? segment = some .top) :
    splitFrom state start (segment ++ ':' :: rest) =
      (splitFrom .top rest rest).map (Split.prepend segment) := by
  induction segment generalizing state with
  | nil =>
      simp only [Nesting.within?, Option.some.injEq] at stays
      subst stays
      rfl
  | cons char segment ih =>
      rcases Nesting.within?_cons_of_some stays with ⟨notStray, notSeparator, continues⟩
      simp only [List.cons_append, splitFrom, notStray, notSeparator, ih continues]
      cases splitFrom .top rest rest with
      | error remainder => rfl
      | ok split => simp [Except.map, Split.push_prepend]

/-- The last segment is what no separator follows. -/
theorem splitFrom_eq_base {state : Nesting} {start base : Text}
    (complete : (state.within? base).any Nesting.isComplete = true) :
    splitFrom state start base = .ok ⟨[], base⟩ := by
  induction base generalizing state with
  | nil =>
      simp only [Nesting.within?, Option.any_some] at complete
      simp [splitFrom, complete]
  | cons char base ih =>
      rw [Option.any_eq_true] at complete
      rcases complete with ⟨final, stays, finalComplete⟩
      rcases Nesting.within?_cons_of_some stays with ⟨notStray, notSeparator, continues⟩
      have restSplit : splitFrom (state.next char) start base = .ok ⟨[], base⟩ := by
        apply ih
        simp [continues, finalComplete]
      simp [splitFrom, notStray, notSeparator, restSplit, Except.map, Split.push]

/-- The texts that `splitFrom` accepts when its reader is in `state`: the first segment is read
from there and all others from the top level. -/
inductive Joined : Nesting → Text → Split → Prop
  | base {state : Nesting} {base : Text}
      (complete : (state.within? base).any Nesting.isComplete = true) :
      Joined state base ⟨[], base⟩
  | separated {state : Nesting} {segment rest : Text} {split : Split}
      (stays : state.within? segment = some .top) (others : Joined .top rest split) :
      Joined state (segment ++ ':' :: rest) (split.prepend segment)

theorem Joined.push {state : Nesting} {char : Char} {rest : Text} {split : Split}
    (notStray : state.isStray char = false)
    (notSeparator : (state.isTopLevel char && char = ':') = false)
    (joined : Joined (state.next char) rest split) :
    Joined state (char :: rest) (split.push char) := by
  cases joined with
  | base complete =>
      exact .base (by rw [Nesting.within?_cons notStray notSeparator]; exact complete)
  | separated stays others =>
      rw [Split.push_prepend, ← List.cons_append]
      exact .separated (by rw [Nesting.within?_cons notStray notSeparator]; exact stays) others

theorem joined_of_splitFrom {state : Nesting} {start text : Text} {split : Split}
    (accepted : splitFrom state start text = .ok split) : Joined state text split := by
  induction text generalizing state start split with
  | nil =>
      simp only [splitFrom] at accepted
      split at accepted
      · rename_i complete
        cases accepted
        exact .base (by simpa [Nesting.within?] using complete)
      · cases accepted
  | cons char rest ih =>
      simp only [splitFrom] at accepted
      split at accepted
      · cases accepted
      · rename_i notStray
        split at accepted
        · rename_i separator
          simp only [Bool.and_eq_true, decide_eq_true_eq] at separator
          rcases separator with ⟨topLevel, isColon⟩
          have stateTop := Nesting.eq_top_of_isTopLevel topLevel
          subst isColon stateTop
          cases others : splitFrom .top rest rest with
          | error remainder => simp [others, Except.map] at accepted
          | ok tailSplit =>
              simp only [others, Except.map, Except.ok.injEq] at accepted
              subst accepted
              exact @Joined.separated .top [] rest tailSplit rfl (ih others)
        · rename_i notSeparator
          cases others : splitFrom (state.next char) start rest with
          | error remainder => simp [others, Except.map] at accepted
          | ok tailSplit =>
              simp only [others, Except.map, Except.ok.injEq] at accepted
              subst accepted
              exact (ih others).push (by simpa using notStray) (by simpa using notSeparator)

theorem splitFrom_of_joined {state : Nesting} {start text : Text} {split : Split}
    (joined : Joined state text split) : splitFrom state start text = .ok split := by
  induction joined generalizing start with
  | base complete => exact splitFrom_eq_base complete
  | separated stays _ ih =>
      rw [splitFrom_append_separator stays, ih]
      rfl

/-- From the top level, the joins are those of sealed segments and a last one. -/
theorem joined_top_iff {text : Text} {variants : List Text} {base : Text} :
    Joined .top text ⟨variants, base⟩ ↔
      (∀ variant ∈ variants, isSealed variant = true) ∧ isTail base = true ∧
        [':'].intercalate (variants ++ [base]) = text := by
  induction variants generalizing text with
  | nil =>
      constructor
      · intro joined
        cases joined with
        | base complete => exact ⟨by simp, complete, by simp [List.intercalate]⟩
      · rintro ⟨-, tail, rfl⟩
        simpa [List.intercalate] using Joined.base tail
  | cons variant variants ih =>
      have joinCons : [':'].intercalate (variant :: variants ++ [base]) =
          variant ++ ':' :: [':'].intercalate (variants ++ [base]) := by
        cases variants <;> simp [List.intercalate]
      rw [joinCons]
      constructor
      · intro joined
        generalize splitEq : (⟨variant :: variants, base⟩ : Split) = split at joined
        cases joined with
        | base complete => cases splitEq
        | @separated _ segment rest others stays joinedRest =>
            simp only [Split.prepend, Split.mk.injEq, List.cons.injEq] at splitEq
            rcases splitEq with ⟨⟨rfl, rfl⟩, rfl⟩
            rcases ih.mp joinedRest with ⟨variantsSealed, tail, rfl⟩
            have variantSealed : isSealed variant = true := by simpa [isSealed] using stays
            exact ⟨by simpa [variantSealed] using variantsSealed, tail, rfl⟩
      · rintro ⟨allSealed, tail, rfl⟩
        have variantSealed := allSealed variant (by simp)
        have others := ih.mpr ⟨fun other mem => allSealed other (by simp [mem]), tail, rfl⟩
        exact .separated (by simpa [isSealed] using variantSealed) others

/-- A refusal carries the candidate and the remainder that its reader stopped at. -/
theorem split_eq_error_iff_splitFrom {candidate : Text} {refusal : Refusal} :
    split candidate = .error refusal ↔ ∃ remainder,
      splitFrom .top candidate candidate = .error remainder ∧
        refusal = .unbalanced candidate remainder := by
  rw [split]
  cases splitFrom .top candidate candidate with
  | error remainder =>
      change Except.error (Refusal.unbalanced candidate remainder) = .error refusal ↔ _
      simp [eq_comm]
  | ok found =>
      change Except.ok found = .error refusal ↔ _
      simp

/-- A successful split is one of the whole candidate, read from the top level. -/
theorem split_eq_ok_iff_joined {candidate : Text} {found : Split} :
    split candidate = .ok found ↔ Joined .top candidate found := by
  constructor
  · intro accepted
    simp only [split] at accepted
    cases read : splitFrom .top candidate candidate with
    | error remainder =>
        rw [read] at accepted
        cases accepted
    | ok other =>
        rw [read] at accepted
        cases accepted
        exact joined_of_splitFrom read
  · intro joined
    rw [split, splitFrom_of_joined joined]
    rfl

/-- Splitting accepts exactly the joins of sealed segments and a last segment, and gives back the
segments that were joined. -/
theorem split_eq_ok_iff (candidate : Text) (variants : List Text) (base : Text) :
    split candidate = .ok ⟨variants, base⟩ ↔
      (∀ variant ∈ variants, isSealed variant = true) ∧ isTail base = true ∧
        [':'].intercalate (variants ++ [base]) = candidate :=
  split_eq_ok_iff_joined.trans joined_top_iff

end Candidate

end AtomicCss
