import AtomicCss.Proofs.Attribute.Clauses
import AtomicCss.Proofs.Fragment.Spacing
import AtomicCss.Proofs.Rule.Plan
import AtomicCss.Proofs.Text.Balance
import AtomicCss.Proofs.Variant.Leads
import Mathlib.Data.List.Forall2

/-!
# Selectors with attributes

Attribute variants combine by conjunction: each of them puts one clause in brackets after the
selector, and none looks at what the others have put there. The brackets never nest, since no clause
shows a bracket to a reader. The flatness of one bracketed clause is what carries over to a row of
them.
-/

namespace AtomicCss

namespace Nesting

/-- Only group marks that are live change a depth. -/
theorem next_of_unmarked {state : Nesting} {char : Char}
    (unmarked : (state.quoting.live [char]).filter isGroupMark = []) :
    state.next char = { state with quoting := state.quoting.next char } := by
  rw [next]
  by_cases live : state.quoting.isLive char = true
  · have notMark : isGroupMark char = false := by
      simpa [Quoting.live, live] using unmarked
    simp only [isGroupMark, groups, List.any_cons, List.any_nil, Bool.or_false,
      Bool.or_eq_false_iff, decide_eq_false_iff_not] at notMark
    simp [notMark]
  · simp [live]

theorem readAll_of_unmarked {state : Nesting} {text : Text}
    (unmarked : (state.quoting.live text).filter isGroupMark = []) :
    state.readAll text = { state with quoting := state.quoting.readAll text } := by
  induction text generalizing state with
  | nil => rfl
  | cons char rest ih =>
      rw [← List.singleton_append, Quoting.live_append, List.filter_append,
        List.append_eq_nil_iff] at unmarked
      have continues := @ih (state.next char) (by rw [quoting_next]; exact unmarked.2)
      rw [quoting_next] at continues
      rw [next_of_unmarked unmarked.1] at continues
      change (state.next char).readAll rest = _
      rw [next_of_unmarked unmarked.1, continues]
      rfl

theorem next_opener {state : Nesting} (outside : state.quoting = .outside) :
    state.next '[' = { state with brackets := state.brackets + 1 } := by
  rcases state with ⟨quoting, brackets, parens⟩
  cases outside
  rfl

/-- A closer undoes what an opener has done. -/
theorem next_closer {state : Nesting} (outside : state.quoting = .outside) :
    next { state with brackets := state.brackets + 1 } ']' = state := by
  rcases state with ⟨quoting, brackets, parens⟩
  cases outside
  rfl

end Nesting

namespace Text

/-- Whether a reader that stands outside strings passes a text with one more bracket open at most,
and stands afterwards where it stood before, having met `count` brackets. -/
structure IsFlat (count : Nat) (text : Text) : Prop where
  returns : ∀ state : Nesting, state.quoting = .outside → state.readAll text = state
  shallow : ∀ state : Nesting, state.quoting = .outside → ∀ front : Text, front <+: text →
    (state.readAll front).brackets ≤ state.brackets + 1
  opened : text.live.count '[' = count

namespace IsFlat

theorem nil : IsFlat 0 [] := by
  refine ⟨fun _ _ => rfl, ?_, rfl⟩
  intro state outside front starts
  rw [List.prefix_nil.mp starts]
  exact Nat.le_succ _

theorem append {leftCount rightCount : Nat} {left right : Text} (leftFlat : IsFlat leftCount left)
    (rightFlat : IsFlat rightCount right) : IsFlat (leftCount + rightCount) (left ++ right) := by
  constructor
  · intro state outside
    rw [Nesting.readAll_append, leftFlat.returns state outside, rightFlat.returns state outside]
  · intro state outside front starts
    rcases Nested.within_or_beyond_of_prefix starts with within | ⟨more, moreStarts, rfl⟩
    · exact leftFlat.shallow state outside front within
    · rw [Nesting.readAll_append, leftFlat.returns state outside]
      exact rightFlat.shallow state outside more moreStarts
  · have outside : Quoting.outside.readAll left = .outside := by
      rw [← Nesting.quoting_readAll ⟨.outside, 0, 0⟩, leftFlat.returns _ rfl]
    rw [live, Quoting.live_append, outside, List.count_append]
    exact congrArg₂ (· + ·) leftFlat.opened rightFlat.opened

end IsFlat

section Clear

variable {text : Text} (clear : text.IsClear isGroupMark)

include clear

theorem readAll_of_isClear {state : Nesting} (outside : state.quoting = .outside) :
    state.readAll text = state := by
  rw [IsClear, ← outside] at clear
  have sameQuoting : state.quoting.readAll text = state.quoting := congrArg Prod.fst clear
  rw [Nesting.readAll_of_unmarked (congrArg Prod.snd clear), sameQuoting]

theorem brackets_readAll_of_isClear {state : Nesting} (outside : state.quoting = .outside)
    {front : Text} (starts : front <+: text) :
    (state.readAll front).brackets = state.brackets := by
  have marks := (live_prefix_live starts).filter isGroupMark
  rw [(isClear_iff.mp clear).2, List.prefix_nil, live, ← outside] at marks
  rw [Nesting.readAll_of_unmarked marks]

theorem count_live_of_isClear {mark : Char} (isMark : isGroupMark mark = true) :
    text.live.count mark = 0 := by
  rw [List.count_eq_zero]
  intro member
  have unmarked := (isClear_iff.mp clear).2
  rw [List.filter_eq_nil_iff] at unmarked
  exact unmarked mark member isMark

theorem isFlat_of_isClear : IsFlat 0 text := by
  refine ⟨fun _ => readAll_of_isClear clear, ?_, count_live_of_isClear clear rfl⟩
  intro state outside front starts
  rw [brackets_readAll_of_isClear clear outside starts]
  exact Nat.le_succ _

end Clear

/-- An attribute selector with this clause. -/
def bracketed (clause : Text) : Text :=
  '[' :: clause ++ [']']

theorem isFlat_bracketed {clause : Text} (clear : clause.IsClear isGroupMark) :
    IsFlat 1 (bracketed clause) := by
  constructor
  · intro state outside
    have passed := @readAll_of_isClear _ clear { state with brackets := state.brackets + 1 } outside
    change (state.next '[').readAll (clause ++ [']']) = state
    rw [Nesting.next_opener outside, Nesting.readAll_append_singleton, passed,
      Nesting.next_closer outside]
  · intro state outside front starts
    rcases List.prefix_cons_iff.mp starts with rfl | ⟨more, rfl, moreStarts⟩
    · exact Nat.le_succ _
    · change ((state.next '[').readAll more).brackets ≤ _
      rw [Nesting.next_opener outside]
      rcases List.prefix_concat_iff.mp moreStarts with rfl | within
      · have passed :=
          @readAll_of_isClear _ clear { state with brackets := state.brackets + 1 } outside
        rw [Nesting.readAll_append_singleton, passed, Nesting.next_closer outside]
        exact Nat.le_succ _
      · have unchanged := @brackets_readAll_of_isClear _ clear
          { state with brackets := state.brackets + 1 } outside more within
        exact unchanged.le
  · have outside : Quoting.outside.readAll clause = .outside := congrArg Prod.fst clear
    change List.count '[' ('[' :: Quoting.outside.live (clause ++ [']'])) = 1
    rw [Quoting.live_append, outside, List.count_cons_self, List.count_append]
    change clause.live.count '[' + 0 + 1 = 1
    rw [count_live_of_isClear clear rfl]

theorem isFlat_flatMap_bracketed {clauses : List Text}
    (clear : ∀ clause ∈ clauses, clause.IsClear isGroupMark) :
    IsFlat clauses.length (clauses.flatMap bracketed) := by
  induction clauses with
  | nil => exact .nil
  | cons clause clauses ih =>
      have first := isFlat_bracketed (clear clause List.mem_cons_self)
      have others := ih (fun other member => clear other (List.mem_cons_of_mem clause member))
      rw [List.length_cons, List.flatMap_cons, Nat.add_comm]
      exact first.append others

end Text

/-- Whether a clause states something about an attribute of the family that a segment names. -/
def Attribute.IsClauseOf (segment clause : Text) : Prop :=
  ∃ family : Text, (family = "aria" ∨ family = "data") ∧ family ++ ['-'] <+: segment ∧
    IsClause family clause

theorem Attribute.IsClauseOf.isClear {mark : Char → Bool} (punctuation : IsPunctuation mark)
    {segment clause : Text} (isClause : IsClauseOf segment clause) : clause.IsClear mark := by
  rcases isClause with ⟨family, rfl | rfl, -, shape⟩
  · exact shape.isClear punctuation (List.all_eq_true.mp rfl)
  · exact shape.isClear punctuation (List.all_eq_true.mp rfl)

namespace Matcher

open Variant (SelectorForm)

/-- Whether one of the matchers for attributes reads a segment as this variant. -/
def ReadsAttribute (screens : Dictionary Text) (segment : Text) (variant : Variant) : Prop :=
  ∃ matcher ∈ [Matcher.aria, Matcher.data], matcher.variant? screens segment = some variant

namespace ReadsAttribute

variable {screens : Dictionary Text} {segment : Text} {variant : Variant}

theorem selectorForm (reads : ReadsAttribute screens segment variant) :
    (variant.kind = .aria ∨ variant.kind = .data) ∧
      SelectorForm segment variant.kind variant.parameter := by
  rcases reads with ⟨matcher, member, found⟩
  simp only [List.mem_cons, List.not_mem_nil, or_false] at member
  rcases member with rfl | rfl
  · simp only [variant?, reading?, Option.map_map, Option.map_eq_some_iff] at found
    rcases found with ⟨clause, found, rfl⟩
    exact ⟨.inl rfl, selectorForm_of_ariaClause? found⟩
  · simp only [variant?, reading?, Option.map_map, Option.map_eq_some_iff] at found
    rcases found with ⟨clause, found, rfl⟩
    exact ⟨.inr rfl, selectorForm_of_dataClause? found⟩

theorem exists_family (reads : ReadsAttribute screens segment variant) :
    ∃ family : Text, (family = "aria" ∨ family = "data") ∧
      variant.kind.family? = some family := by
  rcases reads.selectorForm.1 with kindEq | kindEq
  · exact ⟨"aria", .inl rfl, by rw [kindEq]; rfl⟩
  · exact ⟨"data", .inr rfl, by rw [kindEq]; rfl⟩

theorem isClauseOf (reads : ReadsAttribute screens segment variant)
    (noBackslash : '\\' ∉ segment) : Attribute.IsClauseOf segment variant.parameter := by
  rcases reads.exists_family with ⟨family, isFamily, belongs⟩
  have form := reads.selectorForm.2
  exact ⟨family, isFamily, form.starts belongs, form.isClause belongs noBackslash⟩

theorem suffix_eq (reads : ReadsAttribute screens segment variant) :
    variant.suffix = Text.bracketed variant.parameter := by
  rcases reads.selectorForm.1 with kindEq | kindEq
  · simp [Variant.suffix, Variant.step?, kindEq, Text.bracketed]
  · simp [Variant.suffix, Variant.step?, kindEq, Text.bracketed]

theorem atRule?_eq_none (reads : ReadsAttribute screens segment variant) :
    variant.atRule? = none := by
  rcases reads.selectorForm.1 with kindEq | kindEq
  · simp [Variant.atRule?, kindEq]
  · simp [Variant.atRule?, kindEq]

theorem kind_ne_arbitrarySelector (reads : ReadsAttribute screens segment variant) :
    variant.kind ≠ .arbitrarySelector := by
  intro isFragment
  rcases reads.exists_family with ⟨family, -, belongs⟩
  rw [isFragment] at belongs
  cases belongs

end ReadsAttribute

end Matcher

namespace Vocabulary

open Matcher (ReadsAttribute)

variable {vocabulary : Vocabulary}

/-- Unless a screen has its name, a segment that states something about an attribute is read as
such. -/
theorem variant?_of_readsAttribute {segment : Text} {variant : Variant}
    (reads : ReadsAttribute vocabulary.screens segment variant)
    (notScreen : vocabulary.screens.lookup segment = none) :
    vocabulary.variant? segment = some variant := by
  rcases reads with ⟨matcher, -, found⟩
  exact variant?_eq_of_reads notScreen found

theorem chain_of_readsAttribute {segments : List Text} {chain : List Variant}
    (reads : List.Forall₂ (ReadsAttribute vocabulary.screens) segments chain)
    (notScreens : ∀ segment ∈ segments, vocabulary.screens.lookup segment = none) :
    vocabulary.chain segments = .ok chain := by
  induction reads with
  | nil => rfl
  | cons first _ ih =>
      rw [List.forall_mem_cons] at notScreens
      rw [chain_cons, variant?_of_readsAttribute first notScreens.1, ih notScreens.2]
      rfl

end Vocabulary

namespace Plan

open Matcher (ReadsAttribute)

variable {screens : Dictionary Text} {segments : List Text} {chain : List Variant}

theorem exists_left_of_forall₂ {Left Right : Type} {Related : Left → Right → Prop}
    {lefts : List Left} {rights : List Right} (related : List.Forall₂ Related lefts rights)
    {right : Right} (member : right ∈ rights) : ∃ left, Related left right := by
  induction related with
  | nil => cases member
  | cons first _ ih =>
      rcases List.mem_cons.mp member with rfl | later
      · exact ⟨_, first⟩
      · exact ih later

theorem hasFragment_of_readsAttribute
    (reads : List.Forall₂ (ReadsAttribute screens) segments chain) :
    hasFragment chain = false := by
  rw [hasFragment_eq_false_iff]
  intro variant member
  rcases exists_left_of_forall₂ reads member with ⟨segment, read⟩
  exact read.kind_ne_arbitrarySelector

theorem ofChain_of_readsAttribute
    (reads : List.Forall₂ (ReadsAttribute screens) segments chain) :
    ofChain chain = .ok ⟨.candidate, chain.filterMap Variant.step?, []⟩ := by
  have noAtRules : chain.filterMap Variant.atRule? = [] := by
    rw [List.filterMap_eq_nil_iff]
    intro variant member
    rcases exists_left_of_forall₂ reads member with ⟨segment, read⟩
    exact read.atRule?_eq_none
  simp [ofChain, misplaced?, hasFragment_of_readsAttribute reads, noAtRules]

theorem selector_eq_append {plan : Plan} (planned : ofChain chain = .ok plan)
    (reads : List.Forall₂ (ReadsAttribute screens) segments chain) (initial : Text) :
    plan.selector initial =
      initial ++ (chain.map Variant.parameter).flatMap Text.bracketed := by
  have suffixes : chain.flatMap Variant.suffix =
      (chain.map Variant.parameter).flatMap Text.bracketed := by
    rw [List.flatMap_map]
    apply List.flatMap_congr
    intro variant member
    rcases exists_left_of_forall₂ reads member with ⟨segment, read⟩
    exact read.suffix_eq
  rw [selector, (ofChain_eq_ok planned).2.1,
    foldl_apply_eq_append (hasFragment_of_readsAttribute reads), suffixes]

theorem isFlat_of_forall₂_isClauseOf {clauses : List Text}
    (clausesOf : List.Forall₂ Attribute.IsClauseOf segments clauses) :
    Text.IsFlat segments.length (clauses.flatMap Text.bracketed) := by
  rw [clausesOf.length_eq]
  apply Text.isFlat_flatMap_bracketed
  intro clause member
  rcases exists_left_of_forall₂ clausesOf member with ⟨segment, isClause⟩
  exact isClause.isClear isPunctuation_isGroupMark

/-- Segments of attribute families that are written without a backslash make a plan without
at-rules, which puts one clause for each of them after any selector, in their order. Their brackets
do not nest. Unless a screen has the name of one of them, they are what the vocabulary reads in
these segments. -/
theorem selector_attributes {vocabulary : Vocabulary}
    (noBackslash : ∀ segment ∈ segments, '\\' ∉ segment)
    (reads : List.Forall₂ (ReadsAttribute vocabulary.screens) segments chain) :
    (∃ plan clauses, ofChain chain = .ok plan ∧ plan.atRules = [] ∧
      List.Forall₂ Attribute.IsClauseOf segments clauses ∧
      (∀ initial, plan.selector initial = initial ++ clauses.flatMap Text.bracketed) ∧
      Text.IsFlat segments.length (clauses.flatMap Text.bracketed) ∧
      ∀ initial, Text.IsFlat 0 initial → Text.IsFlat segments.length (plan.selector initial)) ∧
    ((∀ segment ∈ segments, vocabulary.screens.lookup segment = none) →
      vocabulary.chain segments = .ok chain) := by
  have clausesOf : List.Forall₂ Attribute.IsClauseOf segments (chain.map Variant.parameter) := by
    rw [List.forall₂_map_right_iff]
    refine ((List.forall₂_and_left segments chain).mpr ⟨noBackslash, reads⟩).imp ?_
    rintro segment variant ⟨segmentNoBackslash, read⟩
    exact read.isClauseOf segmentNoBackslash
  have planned := ofChain_of_readsAttribute reads
  have flat := isFlat_of_forall₂_isClauseOf clausesOf
  refine ⟨⟨_, _, planned, rfl, clausesOf, selector_eq_append planned reads, flat, ?_⟩,
    Vocabulary.chain_of_readsAttribute reads⟩
  intro initial initialFlat
  rw [selector_eq_append planned reads, ← Nat.zero_add segments.length]
  exact initialFlat.append flat

/-- Brackets, a double quote and an underscore in a value. -/
theorem selector_attributes_bracketsInValue :
    Vocabulary.chain ⟨[("md", "768px")]⟩ ["aria-busy", "data-[title='a]\"[_b']"] =
      .ok [⟨.aria, "aria-busy", "aria-busy=\"true\""⟩,
        ⟨.data, "data-[title='a]\"[_b']", "data-title=\"a]\\\"[ b\""⟩] ∧
    ∃ plan, ofChain [⟨.aria, "aria-busy", "aria-busy=\"true\""⟩,
        ⟨.data, "data-[title='a]\"[_b']", "data-title=\"a]\\\"[ b\""⟩] = .ok plan ∧
      plan.selector ".x" = ".x[aria-busy=\"true\"][data-title=\"a]\\\"[ b\"]" ∧
      Text.IsFlat 2 (plan.selector ".x") := by
  have reads : List.Forall₂ (ReadsAttribute [("md", "768px")])
      ["aria-busy", "data-[title='a]\"[_b']"]
      [⟨.aria, "aria-busy", "aria-busy=\"true\""⟩,
        ⟨.data, "data-[title='a]\"[_b']", "data-title=\"a]\\\"[ b\""⟩] :=
    .cons ⟨.aria, by simp, rfl⟩ (.cons ⟨.data, by simp, rfl⟩ .nil)
  rcases @selector_attributes _ _ ⟨[("md", "768px")]⟩ (by decide) reads with
    ⟨⟨plan, clauses, planned, -, -, -, -, flat⟩, understood⟩
  have classFlat : Text.IsFlat 0 ".x" := Text.isFlat_of_isClear rfl
  refine ⟨understood (by decide), plan, planned, ?_, flat _ classFlat⟩
  cases planned
  rfl

end Plan

end AtomicCss
