import AtomicCss.Proofs.Rule.Parts
import AtomicCss.Proofs.Text.Affixes
import Mathlib.Data.List.Forall2

/-!
# What a minified rule tells

A minified rule is one line without optional blanks, and still every part of the rule can be told
from it: a heading ends at the first opening brace, an at-rule is known by the at sign that its
heading starts with, declarations are separated by semicolons, and a property ends at the first
colon. This takes no more than that the parts of the rule hold none of these marks themselves. Two
rules are then printed alike only if they agree in everything but the blanks that a minified layout
leaves out.
-/

namespace AtomicCss

open Text

/-- Texts that are joined by a mark which none of them holds can be told apart. -/
theorem intercalate_mark_inj {mark : Char} {left right : List Text} (leftSome : left ≠ [])
    (rightSome : right ≠ []) (leftFree : ∀ text ∈ left, mark ∉ text)
    (rightFree : ∀ text ∈ right, mark ∉ text)
    (same : [mark].intercalate left = [mark].intercalate right) : left = right := by
  rw [← List.splitOn_intercalate mark leftFree leftSome, same,
    List.splitOn_intercalate mark rightFree rightSome]

theorem append_inBraces_inj {left right leftInside rightInside : Text} (leftFree : '\x7b' ∉ left)
    (rightFree : '\x7b' ∉ right)
    (same : left ++ inBraces leftInside = right ++ inBraces rightInside) :
    left = right ∧ leftInside = rightInside := by
  rcases append_mark_inj leftFree rightFree same with ⟨sameHead, sameInside⟩
  exact ⟨sameHead, List.append_cancel_right sameInside⟩

/-- Lists with equal images are related member by member, if equal images are a reason for it. -/
theorem forall₂_of_map_eq {Left Right Image : Type} {Related : Left → Right → Prop}
    {leftImage : Left → Image} {rightImage : Right → Image} {lefts : List Left}
    {rights : List Right}
    (relates : ∀ left ∈ lefts, ∀ right ∈ rights, leftImage left = rightImage right →
      Related left right)
    (same : lefts.map leftImage = rights.map rightImage) : List.Forall₂ Related lefts rights := by
  induction lefts generalizing rights with
  | nil =>
      rw [List.map_nil, eq_comm, List.map_eq_nil_iff] at same
      subst same
      exact .nil
  | cons left lefts ih =>
      cases rights with
      | nil => cases same
      | cons right rights =>
          rw [List.map_cons, List.map_cons, List.cons.injEq] at same
          refine .cons (relates left List.mem_cons_self right List.mem_cons_self same.1)
            (ih (fun left leftMem right rightMem => ?_) same.2)
          exact relates left (List.mem_cons_of_mem _ leftMem) right
            (List.mem_cons_of_mem _ rightMem)

namespace Declaration

/-- Whether two declarations differ in the blanks around their values at most. -/
def Agrees (left right : Declaration) : Prop :=
  left.property = right.property ∧ left.value.trim = right.value.trim

theorem agrees_of_print_minified_eq {left right : Declaration} (leftFree : ':' ∉ left.property)
    (rightFree : ':' ∉ right.property) (same : left.print .minified = right.print .minified) :
    left.Agrees right :=
  append_mark_inj leftFree rightFree same

theorem notMem_print_minified {declaration : Declaration} {mark : Char}
    (property : mark ∉ declaration.property) (value : mark ∉ declaration.value)
    (notColon : mark ≠ ':') : mark ∉ declaration.print .minified := by
  simp only [print, List.mem_append, List.mem_cons, not_or]
  exact ⟨property, notColon, notMem_trim value⟩

end Declaration

namespace AtRule

/-- Whether two at-rules have the same minified form. -/
def Agrees (left right : AtRule) : Prop :=
  left.kind = right.kind ∧
    Condition.format .minified left.condition = Condition.format .minified right.condition

theorem wrap_minified (atRule : AtRule) (inner : Text) :
    atRule.wrap .minified inner = atRule.heading .minified ++ inBraces inner := rfl

theorem agrees_of_heading_eq {left right : AtRule}
    (same : left.heading .minified = right.heading .minified) : left.Agrees right := by
  have noSpace (kind : Kind) : ' ' ∉ kind.keyword := by cases kind <;> decide
  have keyword_inj : ∀ {kind other : Kind}, kind.keyword = other.keyword → kind = other := by
    intro kind other
    cases kind <;> cases other <;> decide
  rcases append_mark_inj (noSpace left.kind) (noSpace right.kind) same with
    ⟨sameKeyword, sameCondition⟩
  exact ⟨keyword_inj sameKeyword, sameCondition⟩

theorem head?_heading_append (layout : Layout) (atRule : AtRule) (rest : Text) :
    (atRule.heading layout ++ rest).head? = some '@' := by
  rcases atRule with ⟨kind, condition⟩
  cases kind <;> rfl

end AtRule

namespace Rule

/-- Whether two rules have the same selector, and agree in their at-rules and declarations, in the
same order. -/
structure Agrees (left right : Rule) : Prop where
  selector : left.selector = right.selector
  atRules : List.Forall₂ AtRule.Agrees left.atRules right.atRules
  declarations : List.Forall₂ Declaration.Agrees left.declarations right.declarations

/-- Whether a rule declares something and its parts hold none of the marks that separate them. -/
structure IsLegible (rule : Rule) : Prop where
  declares : rule.declarations ≠ []
  lacks : ∀ mark ∈ ['\x7b', '\x7d', ';'], rule.Lacks mark
  properties : ∀ declaration ∈ rule.declarations, ':' ∉ declaration.property
  selector : rule.selector.head? ≠ some '@'

instance (rule : Rule) : Decidable rule.IsLegible :=
  -- The marks are tried one by one, not every character there is.
  letI : Decidable (∀ mark ∈ ['\x7b', '\x7d', ';'], rule.Lacks mark) :=
    List.decidableBAll _ _
  decidable_of_iff (rule.declarations ≠ [] ∧ (∀ mark ∈ ['\x7b', '\x7d', ';'], rule.Lacks mark) ∧
      (∀ declaration ∈ rule.declarations, ':' ∉ declaration.property) ∧
      rule.selector.head? ≠ some '@')
    ⟨fun ⟨declares, lacks, properties, selector⟩ => ⟨declares, lacks, properties, selector⟩,
      fun ⟨declares, lacks, properties, selector⟩ => ⟨declares, lacks, properties, selector⟩⟩

theorem IsLegible.inner {selector : Text} {atRule : AtRule} {atRules : List AtRule}
    {declarations : List Declaration}
    (legible : IsLegible ⟨selector, atRule :: atRules, declarations⟩) :
    IsLegible ⟨selector, atRules, declarations⟩ :=
  { legible with lacks := fun mark isMark => (legible.lacks mark isMark).inner }

theorem IsLegible.notMem_heading {rule : Rule} (legible : rule.IsLegible) {atRule : AtRule}
    (member : atRule ∈ rule.atRules) : '\x7b' ∉ atRule.heading .minified := by
  apply AtRule.notMem_heading ((legible.lacks '\x7b' (by decide)).conditions atRule member) (by decide)
  intro kind
  cases kind <;> decide

variable {left right : Rule}

/-- The declarations of a minified rule, between its innermost braces. -/
def printDeclarations (rule : Rule) : Text :=
  [';'].intercalate (rule.declarations.map (Declaration.print .minified))

theorem forall₂_agrees_of_printDeclarations_eq (leftLegible : left.IsLegible)
    (rightLegible : right.IsLegible) (same : left.printDeclarations = right.printDeclarations) :
    List.Forall₂ Declaration.Agrees left.declarations right.declarations := by
  have noSemicolon {rule : Rule} (legible : rule.IsLegible) :
      ∀ text ∈ rule.declarations.map (Declaration.print .minified), ';' ∉ text := by
    intro text member
    rcases List.mem_map.mp member with ⟨declaration, declared, rfl⟩
    have lacks := legible.lacks ';' (by decide)
    exact Declaration.notMem_print_minified (lacks.properties declaration declared)
      (lacks.values declaration declared) (by decide)
  have samePrints := intercalate_mark_inj (by simpa using leftLegible.declares)
    (by simpa using rightLegible.declares) (noSemicolon leftLegible) (noSemicolon rightLegible) same
  apply forall₂_of_map_eq ?_ samePrints
  intro declaration declared other otherDeclared
  exact Declaration.agrees_of_print_minified_eq (leftLegible.properties declaration declared)
    (rightLegible.properties other otherDeclared)

/-- The printed rule, at-rules included. -/
def printNested (rule : Rule) : Text :=
  rule.atRules.foldr (AtRule.wrap .minified) (rule.selector ++ inBraces rule.printDeclarations)

theorem print?_minified (declares : left.declarations ≠ []) :
    left.print? .minified = some left.printNested := by
  rw [print?, List.isEmpty_eq_false_iff.mpr declares]
  rfl

/-- A rule whose selector is no at-rule is not printed like one. -/
theorem selector_ne_wrap {selector : Text} (noAtSign : selector.head? ≠ some '@')
    (atRule : AtRule) (inside inner : Text) :
    selector ++ inBraces inside ≠ atRule.wrap .minified inner := by
  intro same
  have starts := AtRule.head?_heading_append .minified atRule (inBraces inner)
  rw [← AtRule.wrap_minified, ← same] at starts
  cases selector with
  | nil => exact absurd starts (by simp [inBraces])
  | cons first selector => exact noAtSign starts

theorem agrees_of_printNested_eq (leftLegible : left.IsLegible) (rightLegible : right.IsLegible)
    (same : left.printNested = right.printNested) : left.Agrees right := by
  rcases left with ⟨selector, atRules, declarations⟩
  rcases right with ⟨otherSelector, otherAtRules, otherDeclarations⟩
  induction atRules generalizing otherAtRules with
  | nil =>
      cases otherAtRules with
      | nil =>
          rcases append_inBraces_inj (leftLegible.lacks '\x7b' (by decide)).selector
            (rightLegible.lacks '\x7b' (by decide)).selector same with ⟨sameSelector, sameInside⟩
          exact ⟨sameSelector, .nil,
            forall₂_agrees_of_printDeclarations_eq leftLegible rightLegible sameInside⟩
      | cons other otherAtRules =>
          exact absurd same (selector_ne_wrap leftLegible.selector other _ _)
  | cons atRule atRules ih =>
      cases otherAtRules with
      | nil => exact absurd same.symm (selector_ne_wrap rightLegible.selector atRule _ _)
      | cons other otherAtRules =>
          rcases append_inBraces_inj (leftLegible.notMem_heading List.mem_cons_self)
            (rightLegible.notMem_heading List.mem_cons_self) same with ⟨sameHeading, sameInner⟩
          have inner := ih leftLegible.inner otherAtRules rightLegible.inner sameInner
          exact ⟨inner.selector, .cons (AtRule.agrees_of_heading_eq sameHeading) inner.atRules,
            inner.declarations⟩

theorem map_print_minified_eq {lefts rights : List Declaration}
    (agree : List.Forall₂ Declaration.Agrees lefts rights) :
    lefts.map (Declaration.print .minified) = rights.map (Declaration.print .minified) := by
  induction agree with
  | nil => rfl
  | cons first _ ih => simp only [List.map_cons, ih, Declaration.print, first.1, first.2]

theorem foldr_wrap_minified_eq {lefts rights : List AtRule}
    (agree : List.Forall₂ AtRule.Agrees lefts rights) (inner : Text) :
    lefts.foldr (AtRule.wrap .minified) inner = rights.foldr (AtRule.wrap .minified) inner := by
  induction agree with
  | nil => rfl
  | cons first _ ih =>
      simp only [List.foldr_cons, ih, AtRule.wrap_minified, AtRule.heading, first.1, first.2]

theorem Agrees.printNested_eq (agrees : left.Agrees right) :
    left.printNested = right.printNested := by
  rw [printNested, printDeclarations, agrees.selector, map_print_minified_eq agrees.declarations]
  exact foldr_wrap_minified_eq agrees.atRules _

/-- Two rules are printed alike in the minified layout if and only if they agree. -/
theorem print?_minified_eq_iff (leftLegible : left.IsLegible) (rightLegible : right.IsLegible) :
    left.print? .minified = right.print? .minified ↔ left.Agrees right := by
  rw [print?_minified leftLegible.declares, print?_minified rightLegible.declares,
    Option.some.injEq]
  exact ⟨agrees_of_printNested_eq leftLegible rightLegible, Agrees.printNested_eq⟩

/-- Two rules that differ in blanks only, with a colon and an empty selector. -/
theorem print?_minified_eq_iff_blanks :
    IsLegible ⟨"", [⟨.media, "(a: b)"⟩, ⟨.supports, "c "⟩], [⟨"d", " e:f "⟩, ⟨"", ""⟩]⟩ ∧
    IsLegible ⟨"", [⟨.media, " (a:  b)"⟩, ⟨.supports, "c"⟩], [⟨"d", "e:f"⟩, ⟨"", " "⟩]⟩ ∧
    Agrees ⟨"", [⟨.media, "(a: b)"⟩, ⟨.supports, "c "⟩], [⟨"d", " e:f "⟩, ⟨"", ""⟩]⟩
      ⟨"", [⟨.media, " (a:  b)"⟩, ⟨.supports, "c"⟩], [⟨"d", "e:f"⟩, ⟨"", " "⟩]⟩ := by
  have leftLegible :
      IsLegible ⟨"", [⟨.media, "(a: b)"⟩, ⟨.supports, "c "⟩], [⟨"d", " e:f "⟩, ⟨"", ""⟩]⟩ := by
    decide
  have rightLegible :
      IsLegible ⟨"", [⟨.media, " (a:  b)"⟩, ⟨.supports, "c"⟩], [⟨"d", "e:f"⟩, ⟨"", " "⟩]⟩ := by
    decide
  refine ⟨leftLegible, rightLegible, (print?_minified_eq_iff leftLegible rightLegible).mp ?_⟩
  decide +kernel

end Rule

end AtomicCss
