import AtomicCss.Fragment
import AtomicCss.Proofs.Candidate.Segments
import AtomicCss.Proofs.Text.Scan

/-!
# Spaced fragments

A fragment is spaced if each of its combinators that stands outside strings and groups has one space
after it and, unless the fragment starts with it, one space before it. Spacing a fragment adds and
drops spaces only, makes it spaced, and changes nothing in a fragment that is spaced already.

The function holds spaces back until it knows whether a combinator follows. `Follows` says what it
has written in terms of what it holds back: reading both would lead to the nesting that it stands
in, although some of the spaces, the escaped ones included, may never be written.
-/

namespace AtomicCss

namespace Nesting

/-- The nesting after reading a whole text. -/
def readAll (state : Nesting) (text : Text) : Nesting :=
  text.foldl next state

theorem readAll_append (state : Nesting) (left right : Text) :
    state.readAll (left ++ right) = (state.readAll left).readAll right :=
  List.foldl_append

theorem readAll_append_singleton (state : Nesting) (text : Text) (char : Char) :
    state.readAll (text ++ [char]) = (state.readAll text).next char :=
  readAll_append state text [char]

theorem quoting_readAll (state : Nesting) (text : Text) :
    (state.readAll text).quoting = state.quoting.readAll text := by
  induction text generalizing state with
  | nil => rfl
  | cons char rest ih =>
      rw [Quoting.readAll_cons, ← quoting_next]
      exact ih (state.next char)

theorem isProper_readAll_top (text : Text) : (top.readAll text).quoting.isProper = true := by
  rw [quoting_readAll]
  exact Quoting.isProper_readAll rfl text

/-- A space ends an escape, if one is pending, and changes nothing else. -/
theorem next_space {state : Nesting} (proper : state.quoting.isProper = true) :
    state.next ' ' = { state with quoting := ⟨state.quoting.quote, false⟩ } := by
  have spaceRead : state.quoting.next ' ' = ⟨state.quoting.quote, false⟩ :=
    Quoting.next_of_isPlain proper rfl
  simp [next, spaceRead]

/-- It makes no difference how many spaces are read, as long as it is not none. -/
theorem readAll_spaces {state : Nesting} (proper : state.quoting.isProper = true) (count : Nat) :
    state.readAll (List.replicate (count + 1) ' ') = state.next ' ' := by
  induction count with
  | zero => rfl
  | succ count ih =>
      have properNext : (state.next ' ').quoting.isProper = true := by
        rw [quoting_next]
        exact Quoting.isProper_next proper ' '
      rw [List.replicate_succ', readAll_append_singleton, ih, next_space properNext,
        next_space proper]

end Nesting

namespace Fragment

open Nesting

/-- Whether a text starts with a space and not with two. -/
def StartsWithOneSpace (text : Text) : Prop :=
  ∃ rest : Text, text = ' ' :: rest ∧ rest.head? ≠ some ' '

/-- Whether a text ends with a space, not with two, and is more than that space. -/
def EndsWithOneSpace (text : Text) : Prop :=
  ∃ front : Text, text = front ++ [' '] ∧ front.getLast? ≠ some ' ' ∧ front ≠ []

/-- Whether `char`, if it is a combinator outside strings and groups, has one space on either
side. -/
def SpacedAt (front : Text) (char : Char) (back : Text) : Prop :=
  isCombinator char = true → (top.readAll front).isTopLevel char = true →
    StartsWithOneSpace back ∧ (front = [] ∨ EndsWithOneSpace front)

/-- Whether the combinators of a fragment are spaced. -/
def IsSpaced (fragment : Text) : Prop :=
  ∀ front char back, fragment = front ++ char :: back → SpacedAt front char back

/-- Whether the combinators in `rest` are spaced in a fragment that it ends. -/
def IsSpacedFrom (front rest : Text) : Prop :=
  ∀ middle char back, rest = middle ++ char :: back → SpacedAt (front ++ middle) char back

theorem isSpacedFrom_nil (front : Text) : IsSpacedFrom front [] := by
  intro middle char back splits
  simp at splits

theorem isSpacedFrom_cons_iff {front rest : Text} {char : Char} :
    IsSpacedFrom front (char :: rest) ↔
      SpacedAt front char rest ∧ IsSpacedFrom (front ++ [char]) rest := by
  constructor
  · intro spaced
    refine ⟨by simpa using spaced [] char rest rfl, fun middle other back splits => ?_⟩
    have spacedThere := spaced (char :: middle) other back (by rw [splits, List.cons_append])
    rwa [List.append_cons] at spacedThere
  · rintro ⟨spacedHere, spaced⟩ middle other back splits
    cases middle with
    | nil =>
        cases splits
        simpa using spacedHere
    | cons first middle =>
        simp only [List.cons_append, List.cons.injEq] at splits
        rcases splits with ⟨rfl, splits⟩
        rw [List.append_cons]
        exact spaced middle other back splits

theorem spacedAt_of_not_isCombinator {front back : Text} {char : Char}
    (notCombinator : isCombinator char = false) : SpacedAt front char back := by
  intro combinator
  rw [notCombinator] at combinator
  cases combinator

theorem isSpacedFrom_spaces_iff {front rest : Text} {count : Nat} :
    IsSpacedFrom front (List.replicate count ' ' ++ rest) ↔
      IsSpacedFrom (front ++ List.replicate count ' ') rest := by
  induction count generalizing front with
  | zero => simp
  | succ count ih =>
      have space : SpacedAt front ' ' (List.replicate count ' ' ++ rest) :=
        spacedAt_of_not_isCombinator rfl
      rw [List.replicate_succ, List.cons_append, isSpacedFrom_cons_iff, ih, ← List.append_cons]
      exact and_iff_right space

/-- The spaces at the end of a text are told from what comes before them. -/
theorem eq_of_append_spaces_eq {left right : Text} (leftEnds : left.getLast? ≠ some ' ')
    (rightEnds : right.getLast? ≠ some ' ') {leftCount count : Nat}
    (same : left ++ List.replicate leftCount ' ' = right ++ List.replicate count ' ') :
    left = right ∧ leftCount = count := by
  induction leftCount generalizing count with
  | zero =>
      cases count with
      | zero => simpa using same
      | succ count =>
          rw [List.replicate_zero, List.append_nil, List.replicate_succ', ← List.append_assoc]
            at same
          exact absurd (by simp [same]) leftEnds
  | succ leftCount ih =>
      cases count with
      | zero =>
          rw [List.replicate_zero, List.append_nil, List.replicate_succ', ← List.append_assoc]
            at same
          exact absurd (by simp [← same]) rightEnds
      | succ count =>
          rw [List.replicate_succ', List.replicate_succ', ← List.append_assoc,
            ← List.append_assoc] at same
          rcases ih (List.append_cancel_right same) with ⟨sameText, sameCount⟩
          exact ⟨sameText, congrArg Nat.succ sameCount⟩

/-! ### What has been written -/

/-- How the state of the spacing relates to what has been written: the spaces held back are not
written yet, and nothing written ends with a space. -/
structure Spacing.Follows (state : Spacing) (written : Text) : Prop where
  nesting : top.readAll (written ++ List.replicate state.gap ' ') = state.nesting
  afterCombinator : state.afterCombinator = true → state.nesting = top
  started : state.started = !written.isEmpty
  noSpaceLast : written.getLast? ≠ some ' '

/-- The space that is written before a combinator. -/
def Spacing.lead (state : Spacing) : Text :=
  if state.started then [' '] else []

theorem Spacing.exists_lead_eq (state : Spacing) :
    ∃ count, state.lead = List.replicate count ' ' := by
  rw [lead]
  split
  · exact ⟨1, rfl⟩
  · exact ⟨0, rfl⟩

theorem next_top_of_isCombinator {char : Char} (combinator : isCombinator char = true) :
    top.next char = top := by
  simp only [isCombinator, Bool.or_eq_true, decide_eq_true_eq] at combinator
  rcases combinator with (rfl | rfl) | rfl <;> rfl

namespace Spacing.Follows

variable {state : Spacing} {written : Text}

theorem quoting (follows : state.Follows written) :
    (top.readAll written).quoting.readAll (List.replicate state.gap ' ') =
      state.nesting.quoting := by
  rw [← quoting_readAll, ← readAll_append, follows.nesting]

theorem skip (follows : state.Follows written) :
    Spacing.Follows { state with nesting := state.nesting.next ' ', gap := state.gap + 1 }
      written := by
  refine ⟨?_, fun after => ?_, follows.started, follows.noSpaceLast⟩
  · rw [List.replicate_succ', ← List.append_assoc, readAll_append_singleton, follows.nesting]
  · change state.nesting.next ' ' = top
    rw [follows.afterCombinator after]
    rfl

theorem write (follows : state.Follows written) {char : Char} (notSpace : char ≠ ' ') :
    Spacing.Follows ⟨state.nesting.next char, 0, false, true⟩
      (written ++ List.replicate state.gap ' ' ++ [char]) := by
  refine ⟨?_, by simp, by simp, by simpa using notSpace⟩
  rw [List.replicate_zero, List.append_nil, readAll_append_singleton, follows.nesting]

/-- Before a combinator at the top level, the spaces held back may be replaced by the lead. -/
theorem readAll_lead (follows : state.Follows written) (atTop : state.nesting = top) :
    top.readAll (written ++ state.lead) = top := by
  have reaches := follows.nesting
  rw [atTop, readAll_append] at reaches
  rw [readAll_append, lead, follows.started]
  cases written with
  | nil => rfl
  | cons first others =>
      change (top.readAll (first :: others)).next ' ' = top
      cases gapEq : state.gap with
      | zero =>
          rw [gapEq] at reaches
          change top.readAll (first :: others) = top at reaches
          rw [reaches]
          rfl
      | succ count =>
          rw [gapEq, readAll_spaces (isProper_readAll_top _)] at reaches
          exact reaches

theorem combine (follows : state.Follows written) (atTop : state.nesting = top) {char : Char}
    (combinator : isCombinator char = true) :
    Spacing.Follows ⟨state.nesting.next char, 1, true, true⟩
      (written ++ state.lead ++ [char]) := by
  have afterChar : state.nesting.next char = top := by
    rw [atTop, next_top_of_isCombinator combinator]
  have notSpace : char ≠ ' ' := by
    rintro rfl
    exact absurd combinator (by decide)
  refine ⟨?_, fun _ => afterChar, by simp, by simpa using notSpace⟩
  change top.readAll (written ++ state.lead ++ [char] ++ [' ']) = _
  rw [readAll_append_singleton, readAll_append_singleton, follows.readAll_lead atTop,
    next_top_of_isCombinator combinator, afterChar]
  rfl

/-- The lead is one space after something written, and nothing at the start. -/
theorem around_lead (follows : state.Follows written) :
    written ++ state.lead = [] ∨ EndsWithOneSpace (written ++ state.lead) := by
  rw [lead, follows.started]
  cases written with
  | nil => exact .inl rfl
  | cons first others => exact .inr ⟨first :: others, rfl, follows.noSpaceLast, by simp⟩

/-- Where the spaces held back are spaced already, they are the lead. -/
theorem gap_eq_lead (follows : state.Follows written)
    (around : written ++ List.replicate state.gap ' ' = [] ∨
      EndsWithOneSpace (written ++ List.replicate state.gap ' ')) :
    List.replicate state.gap ' ' = state.lead := by
  rw [lead, follows.started]
  rcases around with nothing | ⟨front, splits, noSpaceLast, nonempty⟩
  · rw [List.append_eq_nil_iff] at nothing
    rw [nothing.1, nothing.2]
    rfl
  · have sameSpaces : written ++ List.replicate state.gap ' ' = front ++ List.replicate 1 ' ' :=
      splits
    rcases eq_of_append_spaces_eq follows.noSpaceLast noSpaceLast sameSpaces with ⟨rfl, oneSpace⟩
    rw [oneSpace]
    simp [nonempty]

end Spacing.Follows

/-! ### What is written next -/

/-- Spaces that come and go around combinators do not change what a reader scans. -/
theorem scan_spaceFrom {mark : Char → Bool} (spaceUnmarked : mark ' ' = false) {state : Spacing}
    {written : Text} (follows : state.Follows written) (rest : Text) :
    (top.readAll written).quoting.scan mark (spaceFrom state rest) =
      state.nesting.quoting.scan mark rest := by
  have spaces (quoting : Quoting) (count : Nat) :
      quoting.scan mark (List.replicate count ' ') =
        (quoting.readAll (List.replicate count ' '), []) :=
    Quoting.scan_replicate spaceUnmarked quoting count
  induction rest generalizing state written with
  | nil =>
      rw [spaceFrom, spaces, follows.quoting]
      rfl
  | cons char rest ih =>
      simp only [spaceFrom]
      split
      · rename_i isSpace
        subst isSpace
        rw [Quoting.scan_cons_of_unmarked spaceUnmarked, ← quoting_next]
        split
        · rename_i after
          rw [ih follows, follows.afterCombinator after]
          rfl
        · exact ih follows.skip
      · rename_i notSpace
        split
        · rename_i combines
          simp only [Bool.and_eq_true] at combines
          rcases combines with ⟨topLevel, combinator⟩
          have atTop := eq_top_of_isTopLevel topLevel
          have continues := ih (follows.combine atTop combinator)
          rw [readAll_append_singleton, follows.readAll_lead atTop, quoting_next, quoting_next,
            atTop] at continues
          have leadRead := follows.readAll_lead atTop
          rcases state.exists_lead_eq with ⟨count, leadEq⟩
          change Quoting.scan mark _ (state.lead ++ char :: _) = _
          rw [readAll_append] at leadRead
          rw [leadEq, Quoting.scan_append_of_clear (spaces _ count), ← leadEq, ← quoting_readAll,
            leadRead, atTop]
          exact Quoting.scan_cons_congr continues
        · have continues := ih (follows.write notSpace)
          rw [readAll_append_singleton, follows.nesting, quoting_next] at continues
          rw [Quoting.scan_append_of_clear (spaces _ state.gap), follows.quoting]
          exact Quoting.scan_cons_congr continues

theorem startsWithOneSpace_spaceFrom (nesting : Nesting) (rest : Text) :
    StartsWithOneSpace (spaceFrom ⟨nesting, 1, true, true⟩ rest) := by
  induction rest with
  | nil => exact ⟨[], rfl, by simp⟩
  | cons char rest ih =>
      simp only [spaceFrom]
      split
      · exact ih
      · rename_i notSpace
        split
        · exact ⟨_, rfl, by simpa using notSpace⟩
        · exact ⟨_, rfl, by simpa using notSpace⟩

/-- What is written next keeps the combinators spaced. -/
theorem isSpacedFrom_spaceFrom {state : Spacing} {written : Text}
    (follows : state.Follows written) (rest : Text) :
    IsSpacedFrom written (spaceFrom state rest) := by
  induction rest generalizing state written with
  | nil =>
      rw [spaceFrom, ← List.append_nil (List.replicate _ _), isSpacedFrom_spaces_iff]
      exact isSpacedFrom_nil _
  | cons char rest ih =>
      simp only [spaceFrom]
      split
      · rename_i isSpace
        subst isSpace
        split
        · exact ih follows
        · exact ih follows.skip
      · rename_i notSpace
        split
        · rename_i combines
          simp only [Bool.and_eq_true] at combines
          rcases combines with ⟨topLevel, combinator⟩
          have atTop := eq_top_of_isTopLevel topLevel
          change IsSpacedFrom written (state.lead ++ char :: _)
          rcases state.exists_lead_eq with ⟨count, leadEq⟩
          rw [leadEq, isSpacedFrom_spaces_iff, ← leadEq, isSpacedFrom_cons_iff]
          refine ⟨fun _ _ => ⟨startsWithOneSpace_spaceFrom _ rest, follows.around_lead⟩, ?_⟩
          exact ih (follows.combine atTop combinator)
        · rename_i notCombines
          rw [isSpacedFrom_spaces_iff, isSpacedFrom_cons_iff]
          refine ⟨fun combinator topLevel => ?_, ih (follows.write notSpace)⟩
          rw [follows.nesting] at topLevel
          simp [combinator, topLevel] at notCombines

/-- What is spaced already is written as it is. -/
theorem spaceFrom_of_isSpacedFrom {state : Spacing} {written : Text}
    (follows : state.Follows written) (rest : Text)
    (spaced : IsSpacedFrom (written ++ List.replicate state.gap ' ') rest)
    (noSpaceNext : state.afterCombinator = true → rest.head? ≠ some ' ') :
    spaceFrom state rest = List.replicate state.gap ' ' ++ rest := by
  match rest with
  | [] => simp [spaceFrom]
  | char :: rest =>
      rw [isSpacedFrom_cons_iff] at spaced
      simp only [spaceFrom]
      split
      · rename_i isSpace
        subst isSpace
        have notAfter : state.afterCombinator = false := by
          cases after : state.afterCombinator with
          | false => rfl
          | true => exact absurd rfl (noSpaceNext after)
        have spacedNext := spaced.2
        rw [List.append_assoc, ← List.replicate_succ'] at spacedNext
        have others := spaceFrom_of_isSpacedFrom follows.skip rest spacedNext
          (fun after => by simp [notAfter] at after)
        rw [if_neg (by simp [notAfter]), others, List.replicate_succ', List.append_assoc]
        rfl
      · rename_i notSpace
        split
        · rename_i combines
          simp only [Bool.and_eq_true] at combines
          rcases combines with ⟨topLevel, combinator⟩
          have atTop := eq_top_of_isTopLevel topLevel
          rw [SpacedAt, follows.nesting] at spaced
          rcases spaced with ⟨spacedHere, spacedNext⟩
          rcases spacedHere combinator topLevel with ⟨⟨rest, rfl, noSpaceAfter⟩, around⟩
          have gapEq := follows.gap_eq_lead around
          rw [gapEq, isSpacedFrom_cons_iff] at spacedNext
          -- The space after the combinator is held back already and is dropped when it is read.
          have others := spaceFrom_of_isSpacedFrom (follows.combine atTop combinator) rest
            spacedNext.2 (fun _ => noSpaceAfter)
          change state.lead ++ char :: spaceFrom _ (' ' :: rest) = _
          rw [gapEq, spaceFrom, if_pos rfl, if_pos rfl, others]
          rfl
        · rename_i notCombines
          have others := spaceFrom_of_isSpacedFrom (follows.write notSpace) rest
            (by simpa using spaced.2) (by simp)
          rw [others]
          rfl
termination_by rest.length

theorem follows_nil : Spacing.Follows ⟨.top, 0, false, false⟩ [] :=
  ⟨rfl, fun _ => rfl, rfl, by simp⟩

theorem scan_spaceCombinators {mark : Char → Bool} (spaceUnmarked : mark ' ' = false)
    (fragment : Text) :
    Quoting.outside.scan mark (spaceCombinators fragment) = Quoting.outside.scan mark fragment :=
  scan_spaceFrom spaceUnmarked follows_nil fragment

theorem isClosed_spaceCombinators (fragment : Text) :
    (spaceCombinators fragment).isClosed = fragment.isClosed := by
  have sameState : Quoting.outside.readAll (spaceCombinators fragment) =
      Quoting.outside.readAll fragment :=
    congrArg Prod.fst (@scan_spaceCombinators (fun _ => false) rfl fragment)
  rw [Text.isClosed, Text.isClosed, sameState]

theorem isSpaced_spaceCombinators (fragment : Text) : IsSpaced (spaceCombinators fragment) :=
  isSpacedFrom_spaceFrom follows_nil fragment

/-- Spaced fragments are those that spacing leaves alone. -/
theorem spaceCombinators_eq_self_iff {fragment : Text} :
    spaceCombinators fragment = fragment ↔ IsSpaced fragment := by
  constructor
  · intro same
    rw [← same]
    exact isSpaced_spaceCombinators fragment
  · intro spaced
    exact spaceFrom_of_isSpacedFrom follows_nil fragment spaced (by simp)

theorem filter_spaceFrom (state : Spacing) (fragment : Text) :
    (spaceFrom state fragment).filter (· != ' ') = fragment.filter (· != ' ') := by
  induction fragment generalizing state with
  | nil => simp [spaceFrom]
  | cons char rest ih =>
      simp only [spaceFrom]
      split
      · rename_i isSpace
        subst isSpace
        split
        · rw [ih, List.filter_cons_of_neg (by simp)]
        · rw [ih, List.filter_cons_of_neg (by simp)]
      · rename_i notSpace
        split
        · cases state.started <;> simp [notSpace, ih]
        · simp [notSpace, ih]

/-- Spacing a fragment adds and drops nothing but spaces, changes no live character apart from them,
and leaves one space around each combinator that stands outside strings and groups. A fragment that
is spaced, such as the result, stays as it is. -/
theorem spaceCombinators_spaces (fragment : Text) :
    (spaceCombinators fragment).filter (· != ' ') = fragment.filter (· != ' ') ∧
    (spaceCombinators fragment).live.filter (· != ' ') = fragment.live.filter (· != ' ') ∧
    IsSpaced (spaceCombinators fragment) ∧
    spaceCombinators (spaceCombinators fragment) = spaceCombinators fragment := by
  refine ⟨filter_spaceFrom _ fragment, ?_, isSpaced_spaceCombinators fragment,
    spaceCombinators_eq_self_iff.mpr (isSpaced_spaceCombinators fragment)⟩
  exact congrArg Prod.snd (scan_spaceCombinators rfl fragment)

/-- An escaped space gives way to the one that is written, which is escaped in its turn. -/
example : spaceCombinators "&\\  >a~(b+c)" = "&\\ > a ~ (b+c)" := by decide

end Fragment

end AtomicCss
