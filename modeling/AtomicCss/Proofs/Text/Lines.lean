import AtomicCss.Text.Lines
import Mathlib.Data.List.Basic

/-!
# Joining lines and taking them apart

Lines that are joined by line feeds come apart as they were, unless one of them holds a line feed
itself, or ends in a carriage return that would then belong to the line's end, or is empty where the
text ends. A text that is set in lines keeps all these conditions when its lines are moved.
-/

namespace AtomicCss.Text

/-- Whether a text can be a line of its own wherever it stands among other lines. -/
structure IsLine (line : Text) : Prop where
  notEmpty : line ≠ []
  noLineFeed : '\n' ∉ line
  noReturn : line.getLast? ≠ some '\r'

/-- A line at a depth of nesting, two spaces further to the right for each level. -/
def atDepth (depth : Nat) (line : Text) : Text :=
  List.replicate (2 * depth) ' ' ++ line

theorem atDepth_zero (line : Text) : atDepth 0 line = line := rfl

theorem atDepth_atDepth (outer inner : Nat) (line : Text) :
    atDepth outer (atDepth inner line) = atDepth (inner + outer) line := by
  simp only [atDepth]
  rw [← List.append_assoc, List.replicate_append_replicate, ← Nat.mul_add, Nat.add_comm]

theorem IsLine.indent {line : Text} (isLine : IsLine line) : indent 2 line = atDepth 1 line := by
  rw [Text.indent, List.isEmpty_eq_false_iff.mpr isLine.notEmpty]
  rfl

theorem IsLine.atDepth {line : Text} (isLine : IsLine line) (depth : Nat) :
    IsLine (atDepth depth line) where
  notEmpty := by simp [Text.atDepth, isLine.notEmpty]
  noLineFeed := by simp [Text.atDepth, isLine.noLineFeed]
  noReturn := by
    rw [Text.atDepth, List.getLast?_append_of_ne_nil _ isLine.notEmpty]
    exact isLine.noReturn

/-- A text is a line if a visible mark ends it and no line feed stands before. -/
theorem isLine_append_singleton {front : Text} {mark : Char} (noLineFeed : '\n' ∉ front)
    (visible : mark ≠ '\n' ∧ mark ≠ '\r') : IsLine (front ++ [mark]) where
  notEmpty := by simp
  noLineFeed := by simp [noLineFeed, visible.1.symm]
  noReturn := by simp [visible.2]

/-! ### Taking apart -/

/-- A character that does not end a line belongs to it. -/
theorem lines_cons {char : Char} {rest : Text} (notLineFeed : char ≠ '\n')
    (notEnd : char = '\r' → rest.head? ≠ some '\n') :
    lines (char :: rest) =
      match lines rest with
      | [] => [[char]]
      | line :: others => (char :: line) :: others := by
  have notReturn : ∀ others, char = '\r' → rest = '\n' :: others → False := by
    rintro others rfl rfl
    exact notEnd rfl rfl
  exact lines.eq_4 char rest notLineFeed notReturn

theorem lines_append_lineFeed {line : Text} (noLineFeed : '\n' ∉ line)
    (noReturn : line.getLast? ≠ some '\r') (rest : Text) :
    lines (line ++ '\n' :: rest) = line :: lines rest := by
  induction line with
  | nil => rfl
  | cons char line ih =>
      simp only [List.mem_cons, not_or] at noLineFeed
      have notEnd : char = '\r' → (line ++ '\n' :: rest).head? ≠ some '\n' := by
        rintro rfl
        cases line with
        | nil => exact absurd rfl noReturn
        | cons next line =>
            intro isLineFeed
            apply noLineFeed.2
            simp only [List.cons_append, List.head?_cons, Option.some.injEq] at isLineFeed
            simp [isLineFeed]
      have noReturnLater : line.getLast? ≠ some '\r' := by
        intro isReturn
        apply noReturn
        rw [List.getLast?_cons, isReturn]
        rfl
      rw [List.cons_append, lines_cons (Ne.symm noLineFeed.1) notEnd, ih noLineFeed.2 noReturnLater]

theorem lines_of_isLine {line : Text} (isLine : IsLine line) : lines line = [line] := by
  rcases isLine with ⟨notEmpty, noLineFeed, -⟩
  induction line with
  | nil => exact absurd rfl notEmpty
  | cons char line ih =>
      simp only [List.mem_cons, not_or] at noLineFeed
      have notEnd : char = '\r' → line.head? ≠ some '\n' := by
        intro _ isLineFeed
        exact noLineFeed.2 (List.mem_of_mem_head? isLineFeed)
      rw [lines_cons (Ne.symm noLineFeed.1) notEnd]
      cases line with
      | nil => rfl
      | cons next line => rw [ih (List.cons_ne_nil next line) noLineFeed.2]

/-- Lines that have been joined come apart as they were. -/
theorem lines_unlines {rows : List Text} (areLines : ∀ row ∈ rows, IsLine row) :
    lines (unlines rows) = rows := by
  induction rows with
  | nil => rfl
  | cons row rows ih =>
      have isLine := areLines row List.mem_cons_self
      cases rows with
      | nil =>
          rw [unlines, List.intercalate_singleton]
          exact lines_of_isLine isLine
      | cons next rows =>
          have others := ih fun other member => areLines other (List.mem_cons_of_mem row member)
          rw [unlines, List.intercalate_cons_cons, List.append_assoc, List.singleton_append,
            lines_append_lineFeed isLine.noLineFeed isLine.noReturn]
          exact congrArg (row :: ·) others

/-! ### Joining -/

theorem unlines_cons {rows : List Text} (notEmpty : rows ≠ []) (row : Text) :
    unlines (row :: rows) = row ++ '\n' :: unlines rows := by
  cases rows with
  | nil => exact absurd rfl notEmpty
  | cons next rows =>
      rw [unlines, List.intercalate_cons_cons, List.append_assoc, List.singleton_append]
      rfl

theorem unlines_append_singleton {rows : List Text} (notEmpty : rows ≠ []) (row : Text) :
    unlines (rows ++ [row]) = unlines rows ++ '\n' :: row := by
  induction rows with
  | nil => exact absurd rfl notEmpty
  | cons first rows ih =>
      cases rows with
      | nil => simp [unlines, List.intercalate]
      | cons next rows =>
          rw [List.cons_append, unlines_cons (by simp), ih (List.cons_ne_nil next rows),
            unlines_cons (List.cons_ne_nil next rows), List.append_assoc, List.cons_append]

end AtomicCss.Text
