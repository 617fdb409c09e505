import AtomicCss.Proofs.Text.Scan
import Mathlib.Data.List.Infix

/-!
# Balanced texts

The brackets and parentheses of a text that are live are its group marks. A text is balanced when
no beginning of it has more closers than openers of a kind and the whole text has as many of them:
what follows it is then in no group that it has opened, and none of its closers ends a group that
was open before it. The two kinds are counted apart.

Balance depends on the row of group marks alone, so that two texts with the same marks are balanced
together, and inserting one balanced text into another leaves it balanced.
-/

namespace AtomicCss

/-- The kinds of groups, each with the mark that opens it and the one that closes it. -/
def groups : List (Char × Char) :=
  [('[', ']'), ('(', ')')]

def isGroupMark (char : Char) : Bool :=
  groups.any fun (opener, closer) => char = opener || char = closer

theorem isPunctuation_isGroupMark : IsPunctuation isGroupMark := by
  intro char written
  simp only [isGroupMark, groups, List.any_cons, List.any_nil, Bool.or_false, Bool.or_eq_false_iff,
    decide_eq_false_iff_not]
  refine ⟨⟨?_, ?_⟩, ?_, ?_⟩ <;>
  · rintro rfl
    exact absurd written (by decide)

/-- Whether the groups in a row of marks nest. -/
structure Nested (row : Text) : Prop where
  noStray : ∀ front, front <+: row → ∀ group ∈ groups, front.count group.2 ≤ front.count group.1
  allClosed : ∀ group ∈ groups, row.count group.2 = row.count group.1

namespace Nested

instance (row : Text) : Decidable (Nested row) :=
  decidable_of_iff
    ((∀ front ∈ row.inits, ∀ group ∈ groups, front.count group.2 ≤ front.count group.1) ∧
      ∀ group ∈ groups, row.count group.2 = row.count group.1)
    (by simpa only [List.mem_inits] using ⟨fun both => ⟨both.1, both.2⟩,
      fun nested => ⟨nested.noStray, nested.allClosed⟩⟩)

theorem within_or_beyond_of_prefix {left right start : Text} (starts : start <+: left ++ right) :
    start <+: left ∨ ∃ more, more <+: right ∧ start = left ++ more := by
  rcases starts with ⟨back, splits⟩
  rcases List.append_eq_append_iff.mp splits with ⟨missing, rfl, -⟩ | ⟨more, rfl, rfl⟩
  · exact .inl (List.prefix_append start missing)
  · exact .inr ⟨more, List.prefix_append more back, rfl⟩

theorem nil : Nested [] :=
  ⟨fun front starts => by simp [List.prefix_nil.mp starts], fun _ _ => rfl⟩

/-- A nested row can be inserted anywhere into another one. -/
theorem insert {front inner back : Text} (outer : Nested (front ++ back)) (inside : Nested inner) :
    Nested (front ++ inner ++ back) := by
  constructor
  · intro start starts group member
    -- A prefix ends in the front, in the inserted row, or in the back; there the whole inserted row
    -- has been read, which is as deep as none of it.
    have closed := inside.allClosed group member
    rcases within_or_beyond_of_prefix starts with starts | ⟨more, moreStarts, rfl⟩
    · rcases within_or_beyond_of_prefix starts with starts | ⟨more, moreStarts, rfl⟩
      · exact outer.noStray start (starts.trans (List.prefix_append front back)) group member
      · have beforeInner := outer.noStray front (List.prefix_append front back) group member
        have withinInner := inside.noStray more moreStarts group member
        simp only [List.count_append]
        omega
    · have aroundInner := outer.noStray (front ++ more)
        ((List.prefix_append_right_inj front).mpr moreStarts) group member
      simp only [List.count_append] at aroundInner ⊢
      omega
  · intro group member
    have outerClosed := outer.allClosed group member
    have innerClosed := inside.allClosed group member
    simp only [List.count_append] at outerClosed ⊢
    omega

theorem append {left right : Text} (leftNested : Nested left) (rightNested : Nested right) :
    Nested (left ++ right) := by
  have inserted := @insert left right [] (by simpa using leftNested) rightNested
  simpa using inserted

end Nested

theorem Quoting.exists_live_eq_of_prefix {state : Quoting} {text start : Text}
    (starts : start <+: state.live text) : ∃ front, front <+: text ∧ state.live front = start := by
  induction text generalizing state start with
  | nil => exact ⟨[], List.nil_prefix, (List.prefix_nil.mp starts).symm⟩
  | cons char rest ih =>
      simp only [live] at starts
      split at starts
      · rename_i live
        rcases List.prefix_cons_iff.mp starts with rfl | ⟨more, rfl, moreStarts⟩
        · exact ⟨[], List.nil_prefix, rfl⟩
        · rcases ih moreStarts with ⟨front, frontStarts, rfl⟩
          refine ⟨char :: front, List.cons_prefix_cons.mpr ⟨rfl, frontStarts⟩, ?_⟩
          simp [Quoting.live, live]
      · rename_i notLive
        rcases ih starts with ⟨front, frontStarts, rfl⟩
        refine ⟨char :: front, List.cons_prefix_cons.mpr ⟨rfl, frontStarts⟩, ?_⟩
        simp [Quoting.live, notLive]

namespace Text

/-- Whether the live brackets and parentheses of a text are balanced. -/
structure IsBalanced (text : Text) : Prop where
  noStray : ∀ front : Text, front <+: text →
    ∀ group ∈ groups, front.live.count group.2 ≤ front.live.count group.1
  allClosed : ∀ group ∈ groups, text.live.count group.2 = text.live.count group.1

def groupMarks (text : Text) : Text :=
  text.live.filter isGroupMark

theorem count_filter_of_mem_groups {group : Char × Char} (member : group ∈ groups) (row : Text) :
    (row.filter isGroupMark).count group.1 = row.count group.1 ∧
      (row.filter isGroupMark).count group.2 = row.count group.2 := by
  have marks : isGroupMark group.1 = true ∧ isGroupMark group.2 = true := by
    revert group
    decide
  exact ⟨List.count_filter marks.1, List.count_filter marks.2⟩

theorem live_prefix_live {front text : Text} (starts : front <+: text) : front.live <+: text.live := by
  rcases starts with ⟨back, rfl⟩
  rw [live_append]
  exact List.prefix_append _ _

theorem isBalanced_iff {text : Text} : text.IsBalanced ↔ Nested text.groupMarks := by
  constructor
  · intro balanced
    constructor
    · intro start starts group member
      rcases List.prefix_filter_iff.mp starts with ⟨row, rowStarts, rfl⟩
      rcases Quoting.exists_live_eq_of_prefix rowStarts with ⟨front, frontStarts, rfl⟩
      rw [(count_filter_of_mem_groups member _).1, (count_filter_of_mem_groups member _).2]
      exact balanced.noStray front frontStarts group member
    · intro group member
      rw [groupMarks, (count_filter_of_mem_groups member _).1,
        (count_filter_of_mem_groups member _).2]
      exact balanced.allClosed group member
  · intro nested
    constructor
    · intro front starts group member
      have counted := nested.noStray _ ((live_prefix_live starts).filter isGroupMark) group member
      rwa [(count_filter_of_mem_groups member _).1, (count_filter_of_mem_groups member _).2]
        at counted
    · intro group member
      have counted := nested.allClosed group member
      rwa [groupMarks, (count_filter_of_mem_groups member _).1,
        (count_filter_of_mem_groups member _).2] at counted

instance (text : Text) : Decidable text.IsBalanced :=
  decidable_of_iff _ isBalanced_iff.symm

theorem ScanAlike.isBalanced_iff {left right : Text} (alike : ScanAlike isGroupMark left right) :
    left.IsBalanced ↔ right.IsBalanced := by
  have sameMarks : left.groupMarks = right.groupMarks := congrArg Prod.snd (alike .outside rfl)
  rw [Text.isBalanced_iff, Text.isBalanced_iff, sameMarks]

/-- A closed and balanced text: neither it nor the text around it is read differently for standing
where it does. -/
structure IsWhole (text : Text) : Prop where
  closed : text.isClosed = true
  balanced : text.IsBalanced

instance (text : Text) : Decidable text.IsWhole :=
  decidable_of_iff (text.isClosed = true ∧ text.IsBalanced)
    ⟨fun both => ⟨both.1, both.2⟩, fun whole => ⟨whole.closed, whole.balanced⟩⟩

theorem isWhole_iff_scan {text : Text} :
    text.IsWhole ↔ ∃ row, Nested row ∧ Quoting.outside.scan isGroupMark text = (.outside, row) := by
  constructor
  · rintro ⟨closed, balanced⟩
    rw [isClosed, decide_eq_true_eq] at closed
    refine ⟨text.groupMarks, isBalanced_iff.mp balanced, ?_⟩
    rw [Quoting.scan, closed]
    rfl
  · rintro ⟨row, nested, scanned⟩
    simp only [Quoting.scan, Prod.mk.injEq] at scanned
    rcases scanned with ⟨closed, rfl⟩
    exact ⟨decide_eq_true closed, isBalanced_iff.mpr nested⟩

theorem IsClear.isWhole {text : Text} (clear : text.IsClear isGroupMark) : text.IsWhole :=
  isWhole_iff_scan.mpr ⟨[], .nil, clear⟩

namespace IsWhole

variable {left right text : Text}

theorem append (leftWhole : left.IsWhole) (rightWhole : right.IsWhole) :
    (left ++ right).IsWhole := by
  rcases isWhole_iff_scan.mp leftWhole with ⟨leftRow, leftNested, leftScan⟩
  rcases isWhole_iff_scan.mp rightWhole with ⟨rightRow, rightNested, rightScan⟩
  apply isWhole_iff_scan.mpr
  exact ⟨leftRow ++ rightRow, leftNested.append rightNested,
    by rw [Quoting.scan_append leftScan, rightScan]⟩

theorem bracketed (whole : text.IsWhole) : IsWhole ('[' :: text ++ [']']) := by
  rcases isWhole_iff_scan.mp whole with ⟨row, nested, scanned⟩
  have opens : Quoting.outside.scan isGroupMark ['['] = (.outside, ['[']) := rfl
  have closes : Quoting.outside.scan isGroupMark [']'] = (.outside, [']']) := rfl
  have pair : Nested (['['] ++ [']']) := by decide
  apply isWhole_iff_scan.mpr
  refine ⟨['['] ++ row ++ [']'], pair.insert nested, ?_⟩
  rw [List.cons_append, ← List.singleton_append, Quoting.scan_append opens,
    Quoting.scan_append scanned, closes, List.append_assoc]

end IsWhole

end Text

end AtomicCss
