import AtomicCss.Bracket
import AtomicCss.Proofs.Candidate.Segments
import AtomicCss.Proofs.Text.Balance

/-!
# Balanced segments

The reader of candidates keeps two depths, and what it adds to them is the number of openers less
the number of closers that it has met. A segment that it accepts is therefore balanced. The inside
of a bracket that is a whole segment need not be: the bracket that opens the segment may be closed
before the end and the one at the end may close another, as in `[&]x[]`. Where the two belong
together, the inside is balanced as well.
-/

namespace AtomicCss

namespace Nesting

/-- How many groups of a kind are open. -/
def depth (state : Nesting) (group : Char × Char) : Nat :=
  if group.1 = '[' then state.brackets else state.parens

theorem depth_next {state : Nesting} {char : Char} (notStray : state.isStray char = false)
    {group : Char × Char} (member : group ∈ groups) :
    (state.next char).depth group + (state.quoting.live [char]).count group.2 =
      state.depth group + (state.quoting.live [char]).count group.1 := by
  simp only [groups, List.mem_cons, List.not_mem_nil, or_false] at member
  by_cases live : state.quoting.isLive char = true
  · simp only [isStray, live, Bool.true_and] at notStray
    rcases member with rfl | rfl <;>
    · simp only [next, depth, Quoting.live, live]
      grind
  · rcases member with rfl | rfl <;> simp [next, depth, Quoting.live, live]

theorem depth_within? {state final : Nesting} {text : Text} (stays : state.within? text = some final)
    {group : Char × Char} (member : group ∈ groups) :
    final.depth group + (state.quoting.live text).count group.2 =
      state.depth group + (state.quoting.live text).count group.1 := by
  induction text generalizing state with
  | nil =>
      cases stays
      rfl
  | cons char rest ih =>
      rcases within?_cons_of_some stays with ⟨notStray, -, continues⟩
      have atChar := depth_next notStray member
      have afterChar := ih continues
      rw [← List.singleton_append, Quoting.live_append, List.count_append, List.count_append]
      rw [quoting_next] at afterChar
      change _ + (_ + ((state.quoting.next char).live rest).count group.2) =
        _ + (_ + ((state.quoting.next char).live rest).count group.1)
      omega

theorem depth_within?_top {final : Nesting} {text : Text} (stays : top.within? text = some final)
    {group : Char × Char} (member : group ∈ groups) :
    final.depth group + text.live.count group.2 = text.live.count group.1 := by
  have counted := depth_within? stays member
  have topDepth : top.depth group = 0 := by simp [depth, top]
  rw [topDepth, Nat.zero_add] at counted
  exact counted

theorem within?_append (state : Nesting) (left right : Text) :
    state.within? (left ++ right) = (state.within? left).bind (·.within? right) := by
  induction left generalizing state with
  | nil => rfl
  | cons char left ih =>
      simp only [List.cons_append, within?]
      split
      · rfl
      · exact ih (state.next char)

end Nesting

namespace Candidate

theorem isBalanced_of_isSealed {segment : Text} (whole : isSealed segment = true) :
    segment.IsBalanced := by
  rw [isSealed, decide_eq_true_eq] at whole
  constructor
  · rintro front ⟨back, rfl⟩ group member
    rw [Nesting.within?_append, Option.bind_eq_some_iff] at whole
    rcases whole with ⟨middle, stays, -⟩
    have counted := Nesting.depth_within?_top stays member
    omega
  · intro group member
    have counted := Nesting.depth_within?_top whole member
    simpa [Nesting.depth, Nesting.top] using counted

end Candidate

/-- Whether the brackets around a segment, if it has any, belong together: no beginning of what
stands between them closes the first one. -/
def Bracket.IsPaired (segment : Text) : Prop :=
  ∀ inside, inner? segment = some inside →
    ∀ front : Text, front <+: inside → front.live.count ']' ≤ front.live.count '['

theorem Candidate.isWhole_inside {inside : Text} (noBackslash : '\\' ∉ inside)
    (whole : isSealed ('[' :: inside ++ [']']) = true)
    (paired : ∀ front : Text, front <+: inside → front.live.count ']' ≤ front.live.count '[') :
    inside.IsWhole := by
  have closed := isClosed_inside noBackslash whole
  have balanced := isBalanced_of_isSealed whole
  have opened (text : Text) : Text.live ('[' :: text) = '[' :: text.live := rfl
  have segmentLive : Text.live ('[' :: inside ++ [']']) = '[' :: inside.live ++ [']'] := by
    rw [Text.isClosed, decide_eq_true_eq] at closed
    rw [List.cons_append, opened, Text.live, Quoting.live_append, closed]
    rfl
  refine ⟨closed, ?_, ?_⟩
  · intro front starts group member
    have atFront := balanced.noStray ('[' :: front)
      (List.cons_prefix_cons.mpr ⟨rfl, starts.trans (List.prefix_append inside [']'])⟩) group member
    simp only [groups, List.mem_cons, List.not_mem_nil, or_false] at member
    rcases member with rfl | rfl
    · exact paired front starts
    · simpa [opened] using atFront
  · intro group member
    have atEnd := balanced.allClosed group member
    rw [segmentLive] at atEnd
    simp only [groups, List.mem_cons, List.not_mem_nil, or_false] at member
    rcases member with rfl | rfl <;> simpa using atEnd

end AtomicCss
