import AtomicCss.AtRule.Condition
import AtomicCss.Proofs.Text.Scan
import Mathlib.Data.List.Infix

/-!
# Colons of features

A colon belongs to a feature when it is live, follows a name and stands in at least one parenthesis
but in none of a function. A parenthesis belongs to a function when it follows a name itself. It
encloses what comes after it until as many closers as openers have been read there; a closer that
no opener matches changes nothing.

The printer of a condition decides this with a stack of flags. The flag at a place of the stack
belongs to the open parenthesis with that many open ones after it, and so a closer, which takes off
the topmost flag, leaves the parentheses that it does not close.
-/

namespace AtomicCss.Condition

open Quoting

/-- Whether a text ends in an ASCII name character, escaped and quoted ones included. -/
def endsInName (text : Text) : Bool :=
  text.getLast?.any isNameChar

/-- Whether a parenthesis opened between two texts is still open after the second one. -/
structure Encloses (left inside : Text) : Prop where
  opens : (outside.readAll left).isLive '(' = true
  staysOpen : ∀ start : Text, start <+: inside → start.live.count ')' ≤ start.live.count '('

/-- Whether a colon after this text belongs to a feature. -/
structure BeforeFeatureColon (front : Text) : Prop where
  live : (outside.readAll front).isLive ':' = true
  followsName : endsInName front = true
  grouped : ∃ left inside, front = left ++ '(' :: inside ∧ Encloses left inside
  notInFunction : ∀ left inside, front = left ++ '(' :: inside → Encloses left inside →
    endsInName left = false

/-! ### The state after a text -/

namespace State

/-- The state after reading a whole text, no blank of which is dropped. -/
def readAll (state : State) (text : Text) : State :=
  text.foldl next state

variable {state : State} {front : Text} {char : Char}

theorem readAll_append (state : State) (left right : Text) :
    state.readAll (left ++ right) = (state.readAll left).readAll right :=
  List.foldl_append

theorem readAll_append_singleton :
    state.readAll (front ++ [char]) = (state.readAll front).next char :=
  readAll_append state front [char]

theorem quoting_readAll (state : State) (text : Text) :
    (state.readAll text).quoting = state.quoting.readAll text := by
  induction text generalizing state with
  | nil => rfl
  | cons char rest ih => exact ih (state.next char)

theorem followsName_readAll (front : Text) :
    (start.readAll front).followsName = endsInName front := by
  rcases List.eq_nil_or_concat' front with rfl | ⟨init, last, rfl⟩
  · rfl
  · rw [readAll_append_singleton, endsInName, List.getLast?_concat]
    rfl

theorem dropping_readAll (notDropping : state.dropping = false) (text : Text) :
    (state.readAll text).dropping = false := by
  induction text generalizing state with
  | nil => exact notDropping
  | cons char rest ih => exact ih rfl

end State

/-! ### The stack of open parentheses -/

/-- Whether a parenthesis is still open, with `depth` open ones after it. -/
structure EnclosesAt (depth : Nat) (left inside : Text) : Prop extends Encloses left inside where
  count : inside.live.count '(' = inside.live.count ')' + depth

section

variable {left inside front : Text} {char : Char} {depth : Nat}

theorem Encloses.exists_depth (encloses : Encloses left inside) :
    ∃ depth, EnclosesAt depth left inside := by
  have count := encloses.staysOpen inside List.prefix_rfl
  exact ⟨inside.live.count '(' - inside.live.count ')', encloses, by omega⟩

theorem enclosesAt_nil :
    EnclosesAt depth left [] ↔ (outside.readAll left).isLive '(' = true ∧ depth = 0 := by
  constructor
  · intro encloses
    have count : 0 = 0 + depth := encloses.count
    exact ⟨encloses.opens, by omega⟩
  · rintro ⟨opens, rfl⟩
    refine ⟨⟨opens, fun start starts => ?_⟩, rfl⟩
    rw [List.prefix_nil.mp starts]
    exact Nat.le_refl _

theorem encloses_append_singleton :
    Encloses left (inside ++ [char]) ↔
      Encloses left inside ∧
        (inside ++ [char]).live.count ')' ≤ (inside ++ [char]).live.count '(' := by
  constructor
  · intro encloses
    refine ⟨⟨encloses.opens, fun start starts => ?_⟩, encloses.staysOpen _ List.prefix_rfl⟩
    exact encloses.staysOpen start (starts.trans (List.prefix_append inside [char]))
  · rintro ⟨encloses, count⟩
    refine ⟨encloses.opens, fun start starts => ?_⟩
    rcases List.prefix_concat_iff.mp starts with rfl | starts
    · simpa only [List.concat_eq_append] using count
    · exact encloses.staysOpen start starts

/-- Inside a live parenthesis a text is read as if it stood alone. -/
theorem readAll_inside (opens : (outside.readAll left).isLive '(' = true) :
    outside.readAll (left ++ '(' :: inside) = outside.readAll inside := by
  rw [Quoting.readAll_append, eq_outside_of_isLive opens]
  rfl

theorem count_live_append_singleton (opens : (outside.readAll left).isLive '(' = true)
    (inside : Text) (char mark : Char) :
    (inside ++ [char]).live.count mark =
      inside.live.count mark + ((outside.readAll (left ++ '(' :: inside)).live [char]).count mark := by
  rw [Text.live_append, List.count_append, readAll_inside opens]

/-- The parenthesis between two texts, after one more character: it is as deep as before, but for
what the character opens and closes. -/
theorem enclosesAt_append_singleton :
    EnclosesAt depth left (inside ++ [char]) ↔
      ∃ former, EnclosesAt former left inside ∧
        former + ((outside.readAll (left ++ '(' :: inside)).live [char]).count '(' =
          depth + ((outside.readAll (left ++ '(' :: inside)).live [char]).count ')' := by
  constructor
  · rintro ⟨encloses, count⟩
    have counts := count_live_append_singleton encloses.opens inside char
    rcases (encloses_append_singleton.mp encloses).1.exists_depth with ⟨former, formerly⟩
    have formerCount := formerly.count
    rw [counts, counts] at count
    exact ⟨former, formerly, by omega⟩
  · rintro ⟨former, formerly, sum⟩
    have counts := count_live_append_singleton formerly.opens inside char
    have formerCount := formerly.count
    refine ⟨encloses_append_singleton.mpr ⟨formerly.toEncloses, ?_⟩, ?_⟩
    · rw [counts, counts]
      omega
    · rw [counts, counts]
      omega

end

theorem exists_opener_append_singleton {Holds : Text → Text → Prop} {front : Text} {char : Char} :
    (∃ left inside, front ++ [char] = left ++ '(' :: inside ∧ Holds left inside) ↔
      char = '(' ∧ Holds front [] ∨
        ∃ left inside, front = left ++ '(' :: inside ∧ Holds left (inside ++ [char]) := by
  constructor
  · rintro ⟨left, inside, splits, holds⟩
    rcases List.eq_nil_or_concat' inside with rfl | ⟨init, last, rfl⟩
    · rcases List.append_inj' splits rfl with ⟨rfl, opener⟩
      exact .inl ⟨List.head_eq_of_cons_eq opener, holds⟩
    · rw [← List.cons_append, ← List.append_assoc] at splits
      rcases List.append_inj' splits rfl with ⟨rfl, sameLast⟩
      cases sameLast
      exact .inr ⟨left, init, rfl, holds⟩
  · rintro (⟨rfl, holds⟩ | ⟨left, inside, rfl, holds⟩)
    · exact ⟨front, [], rfl, holds⟩
    · exact ⟨left, inside ++ [char], by simp, holds⟩

/-- Whether a parenthesis is open after a text that has `depth` open ones after it, and that
belongs to a function or does not. -/
def IsOpenAt (depth : Nat) (isFunction : Bool) (front : Text) : Prop :=
  ∃ left inside, front = left ++ '(' :: inside ∧
    EnclosesAt depth left inside ∧ endsInName left = isFunction

variable {front : Text} {char : Char} {depth : Nat} {isFunction : Bool}

/-- Reading one more character opens a parenthesis, or leaves those that it does not close. -/
theorem isOpenAt_append_singleton :
    IsOpenAt depth isFunction (front ++ [char]) ↔
      char = '(' ∧ (outside.readAll front).isLive '(' = true ∧ depth = 0 ∧
          endsInName front = isFunction ∨
        ∃ former, IsOpenAt former isFunction front ∧
          former + ((outside.readAll front).live [char]).count '(' =
            depth + ((outside.readAll front).live [char]).count ')' := by
  rw [IsOpenAt, exists_opener_append_singleton, enclosesAt_nil, and_assoc]
  apply or_congr_right
  constructor
  · rintro ⟨left, inside, rfl, encloses, flag⟩
    rcases enclosesAt_append_singleton.mp encloses with ⟨former, formerly, sum⟩
    exact ⟨former, ⟨left, inside, rfl, formerly, flag⟩, sum⟩
  · rintro ⟨former, ⟨left, inside, rfl, formerly, flag⟩, sum⟩
    exact ⟨left, inside, rfl, enclosesAt_append_singleton.mpr ⟨former, formerly, sum⟩, flag⟩

/-- What one character does to the stack. -/
theorem State.getElem?_functions_next {state : State} :
    (state.next char).functions[depth]? = some isFunction ↔
      char = '(' ∧ state.quoting.isLive '(' = true ∧ depth = 0 ∧
          state.followsName = isFunction ∨
        ∃ former, state.functions[former]? = some isFunction ∧
          former + (state.quoting.live [char]).count '(' =
            depth + (state.quoting.live [char]).count ')' := by
  simp only [next, Quoting.live]
  by_cases live : state.quoting.isLive char = true
  · by_cases opener : char = '('
    · subst opener
      cases depth <;> simp [live]
    · by_cases closer : char = ')'
      · subst closer
        simp [live]
      · simp [live, opener, closer]
  · by_cases opener : char = '('
    · subst opener
      simp [live]
    · simp [live, opener]

/-- The flag at a place of the stack is that of the open parenthesis with so many after it. -/
theorem getElem?_functions_readAll :
    (State.start.readAll front).functions[depth]? = some isFunction ↔
      IsOpenAt depth isFunction front := by
  induction front using List.reverseRecOn generalizing depth with
  | nil => simp [State.readAll, State.start, IsOpenAt]
  | append_singleton front char ih =>
      rw [State.readAll_append_singleton, State.getElem?_functions_next, isOpenAt_append_singleton,
        State.quoting_readAll, State.followsName_readAll]
      simp only [ih]
      rfl

theorem mem_functions_readAll :
    isFunction ∈ (State.start.readAll front).functions ↔
      ∃ left inside, front = left ++ '(' :: inside ∧ Encloses left inside ∧
        endsInName left = isFunction := by
  rw [List.mem_iff_getElem?]
  simp only [getElem?_functions_readAll]
  constructor
  · rintro ⟨depth, left, inside, splits, encloses, flag⟩
    exact ⟨left, inside, splits, encloses.toEncloses, flag⟩
  · rintro ⟨left, inside, splits, encloses, flag⟩
    rcases encloses.exists_depth with ⟨depth, enclosesAt⟩
    exact ⟨depth, left, inside, splits, enclosesAt, flag⟩

theorem isEmpty_functions_readAll :
    (State.start.readAll front).functions.isEmpty = false ↔
      ∃ left inside, front = left ++ '(' :: inside ∧ Encloses left inside := by
  rw [List.isEmpty_eq_false_iff_exists_mem]
  simp only [mem_functions_readAll]
  constructor
  · rintro ⟨flag, left, inside, splits, encloses, -⟩
    exact ⟨left, inside, splits, encloses⟩
  · rintro ⟨left, inside, splits, encloses⟩
    exact ⟨endsInName left, left, inside, splits, encloses, rfl⟩

theorem any_functions_readAll :
    (State.start.readAll front).functions.any id = false ↔
      ∀ left inside, front = left ++ '(' :: inside → Encloses left inside →
        endsInName left = false := by
  rw [List.any_eq_false]
  constructor
  · intro noFlag left inside splits encloses
    exact Bool.eq_false_iff.mpr
      (noFlag _ (mem_functions_readAll.mpr ⟨left, inside, splits, encloses, rfl⟩))
  · intro noFunction flag member isFlag
    rcases mem_functions_readAll.mp member with ⟨left, inside, splits, encloses, rfl⟩
    exact Bool.false_ne_true ((noFunction left inside splits encloses).symm.trans isFlag)

/-- The printer recognises the colons of features. -/
theorem isFeatureColon_readAll :
    (State.start.readAll front).isFeatureColon char = true ↔
      char = ':' ∧ BeforeFeatureColon front := by
  simp only [State.isFeatureColon, Bool.and_eq_true, Bool.not_eq_true', decide_eq_true_eq,
    State.quoting_readAll, State.followsName_readAll, isEmpty_functions_readAll,
    any_functions_readAll]
  constructor
  · rintro ⟨⟨⟨⟨live, rfl⟩, grouped⟩, notInFunction⟩, followsName⟩
    exact ⟨rfl, live, followsName, grouped, notInFunction⟩
  · rintro ⟨rfl, before⟩
    exact ⟨⟨⟨⟨before.live, rfl⟩, before.grouped⟩, before.notInFunction⟩, before.followsName⟩

end AtomicCss.Condition
