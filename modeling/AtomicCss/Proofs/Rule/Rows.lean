import AtomicCss.Proofs.Rule.Parts
import AtomicCss.Proofs.Text.Lines

/-!
# The lines of a pretty rule

A pretty rule is printed from the inside out: every at-rule takes the text of what it holds apart
into lines and moves them to the right. `Rule.rows` lists the lines of the same rule from the top
down, each at the depth where it stands. The two agree for every rule whose parts hold no line feed,
because then no line of the printed text is empty or ends in a carriage return, and taking the text
apart gives back the lines that it was made of.
-/

namespace AtomicCss

open Text

/-- The line that opens a block. -/
def opening (head : Text) : Text :=
  head ++ " \x7b"

/-- The line that closes a block. -/
def closing : Text := "\x7d"

theorem unlines_inBraceLines {rows : List Text} (notEmpty : rows ≠ []) (head : Text) :
    head ++ ' ' :: inBraceLines (unlines rows) = unlines (opening head :: rows ++ [closing]) := by
  rw [List.cons_append, unlines_cons (by simp), unlines_append_singleton notEmpty]
  simp [inBraceLines, inBraces, opening, closing]

theorem isLine_opening {head : Text} (noLineFeed : '\n' ∉ head) : IsLine (opening head) := by
  have isLine : IsLine (head ++ [' '] ++ ['\x7b']) :=
    isLine_append_singleton (by simp [noLineFeed]) (by decide)
  rwa [List.append_assoc] at isLine

theorem isLine_closing : IsLine closing :=
  ⟨by decide, by decide, by decide⟩

namespace Declaration

/-- A declaration on a line of its own. -/
def row (declaration : Declaration) : Text :=
  declaration.property ++ ": " ++ declaration.value.trim ++ ";"

theorem print_pretty (declaration : Declaration) :
    declaration.print .pretty = atDepth 1 declaration.row := by
  simp [print, row, atDepth]

theorem isLine_row {declaration : Declaration} (property : '\n' ∉ declaration.property)
    (value : '\n' ∉ declaration.value) : IsLine declaration.row :=
  isLine_append_singleton (by simp [property, notMem_trim value]) (by decide)

end Declaration

namespace AtRule

theorem wrap_pretty (atRule : AtRule) {rows : List Text} (notEmpty : rows ≠ [])
    (areLines : ∀ row ∈ rows, IsLine row) :
    atRule.wrap .pretty (unlines rows) =
      unlines (opening (atRule.heading .pretty) :: rows.map (atDepth 1) ++ [closing]) := by
  have moved : rows.map (indent 2) = rows.map (atDepth 1) :=
    List.map_congr_left fun row member => (areLines row member).indent
  rw [wrap, lines_unlines areLines, moved]
  exact unlines_inBraceLines (by simpa using notEmpty) (atRule.heading .pretty)

theorem isLine_heading {atRule : AtRule} (noLineFeed : '\n' ∉ atRule.condition) :
    IsLine (opening (atRule.heading .pretty)) := by
  apply isLine_opening
  apply notMem_heading noLineFeed (by decide)
  intro kind
  cases kind <;> decide

end AtRule

namespace Rule

/-- The lines of a rule from the top down: the at-rules from the outermost on, then the selector and
the declarations, then the closing braces from the innermost on. -/
def rows (rule : Rule) : List Text :=
  let depth := rule.atRules.length
  rule.atRules.mapIdx (fun outer atRule => atDepth outer (opening (atRule.heading .pretty))) ++
    atDepth depth (opening rule.selector) ::
    rule.declarations.map (fun declaration => atDepth (depth + 1) declaration.row) ++
    atDepth depth closing :: (List.range depth).reverse.map fun outer => atDepth outer closing

variable {selector : Text} {atRule : AtRule} {atRules : List AtRule}
  {declarations : List Declaration}

theorem rows_ne_nil (rule : Rule) : rule.rows ≠ [] := by
  simp [rows]

/-- An at-rule encloses the lines of what it holds and moves them one level to the right. -/
theorem rows_cons :
    rows ⟨selector, atRule :: atRules, declarations⟩ =
      opening (atRule.heading .pretty) ::
        (rows ⟨selector, atRules, declarations⟩).map (atDepth 1) ++ [closing] := by
  have opened : (atRules.mapIdx fun outer inner =>
        atDepth (outer + 1) (opening (inner.heading .pretty))) =
      (atRules.mapIdx fun outer inner =>
        atDepth outer (opening (inner.heading .pretty))).map (atDepth 1) := by
    simp [List.mapIdx_eq_zipIdx_map, atDepth_atDepth]
  simp [rows, opened, List.mapIdx_cons, List.range_succ_eq_map, atDepth_atDepth, atDepth_zero,
    Function.comp_def]

theorem areLines_rows {rule : Rule} (lacks : rule.Lacks '\n') : ∀ row ∈ rule.rows, IsLine row := by
  rcases rule with ⟨selector, atRules, declarations⟩
  induction atRules with
  | nil =>
      intro row member
      simp only [rows, List.mapIdx_nil, List.nil_append, List.length_nil, List.range_zero,
        List.reverse_nil, List.map_nil, List.mem_append, List.mem_cons, List.mem_map,
        List.not_mem_nil, or_false] at member
      rcases member with (rfl | ⟨declaration, declared, rfl⟩) | rfl
      · exact (isLine_opening lacks.selector).atDepth 0
      · exact (Declaration.isLine_row (lacks.properties declaration declared)
          (lacks.values declaration declared)).atDepth 1
      · exact isLine_closing.atDepth 0
  | cons atRule atRules ih =>
      intro row member
      rw [rows_cons] at member
      simp only [List.cons_append, List.mem_cons, List.mem_append, List.mem_map,
        List.not_mem_nil, or_false] at member
      rcases member with rfl | ⟨inner, innerMember, rfl⟩ | rfl
      · exact AtRule.isLine_heading (lacks.conditions atRule List.mem_cons_self)
      · exact (ih lacks.inner inner innerMember).atDepth 1
      · exact isLine_closing

/-- Without at-rules a pretty rule is the block of its declarations. -/
theorem printBody_pretty (declares : declarations ≠ []) :
    printBody .pretty ⟨selector, atRules, declarations⟩ =
      unlines (rows ⟨selector, [], declarations⟩) := by
  have printed : declarations.map (Declaration.print .pretty) =
      declarations.map fun declaration => atDepth 1 declaration.row :=
    List.map_congr_left fun declaration _ => declaration.print_pretty
  rw [printBody, printed, unlines_inBraceLines (by simpa using declares)]
  simp [rows, atDepth_zero]

/-- A pretty rule consists of its lines from the top down, each at the depth where it stands. -/
theorem print?_pretty_eq_rows {rule : Rule} (declares : rule.declarations ≠ [])
    (lacks : rule.Lacks '\n') : rule.print? .pretty = some (unlines rule.rows) := by
  rcases rule with ⟨selector, atRules, declarations⟩
  have nested : atRules.foldr (AtRule.wrap .pretty)
      (printBody .pretty ⟨selector, atRules, declarations⟩) =
        unlines (rows ⟨selector, atRules, declarations⟩) := by
    rw [printBody_pretty declares]
    clear declares
    induction atRules with
    | nil => rfl
    | cons atRule atRules ih =>
        rw [List.foldr_cons, ih lacks.inner, rows_cons]
        exact atRule.wrap_pretty (rows_ne_nil _) (areLines_rows lacks.inner)
  rw [print?, nested, List.isEmpty_eq_false_iff.mpr declares]
  rfl

/-- Two at-rules around two declarations, with a carriage return at the end of the selector and a
value that is blank. -/
theorem print?_pretty_eq_rows_twoAtRules :
    [Declaration.mk "f" " ", ⟨"g", "h"⟩] ≠ [] ∧
    Lacks ⟨".a\r", [⟨.media, "(b:c)"⟩, ⟨.supports, " (d: e) "⟩], [⟨"f", " "⟩, ⟨"g", "h"⟩]⟩ '\n' ∧
    print? .pretty
        ⟨".a\r", [⟨.media, "(b:c)"⟩, ⟨.supports, " (d: e) "⟩], [⟨"f", " "⟩, ⟨"g", "h"⟩]⟩ =
      some (unlines
        ["@media (b: c) \x7b", "  @supports (d: e) \x7b", "    .a\r \x7b", "      f: ;",
          "      g: h;", "    \x7d", "  \x7d", "\x7d"]) := by
  have declares : [Declaration.mk "f" " ", ⟨"g", "h"⟩] ≠ [] := List.cons_ne_nil _ _
  have lacks :
      Lacks ⟨".a\r", [⟨.media, "(b:c)"⟩, ⟨.supports, " (d: e) "⟩], [⟨"f", " "⟩, ⟨"g", "h"⟩]⟩ '\n' := by
    decide
  refine ⟨declares, lacks, ?_⟩
  rw [print?_pretty_eq_rows declares lacks]
  decide +kernel

end Rule

end AtomicCss
