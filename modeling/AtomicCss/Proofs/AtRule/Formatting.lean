import AtomicCss.Proofs.AtRule.Features
import AtomicCss.Proofs.Text.Affixes
import AtomicCss.Proofs.Text.Characters

/-!
# Formatting conditions

A layout changes nothing in a condition but the blanks after the colons of features. `LaidOut` says
what it makes of them, by what stands before each colon in the condition and not by the state of
the printer.

Blanks after a colon are no part of what the printer has seen of a condition when it goes on, and
this is why it finds the colons of features again in its own output: formatting for one layout and
then for another is formatting for the second one alone if that one asks for the same blanks
whatever blanks the first one has left.
-/

namespace AtomicCss

open Quoting

/-- The blanks that a layout has after the colon of a feature, for those that were written there. -/
def Layout.gap : Layout → Text → Text
  | .pretty, [] => [' ']
  | .pretty, blanks => blanks
  | .minified, _ => []

namespace Layout

theorem gap_gap (layout : Layout) (blanks : Text) :
    layout.gap (layout.gap blanks) = layout.gap blanks := by
  cases layout
  · cases blanks <;> rfl
  · rfl

theorem isBlank_of_mem_gap {layout : Layout} {blanks : Text} {char : Char}
    (allBlank : ∀ char ∈ blanks, isBlank char = true) (member : char ∈ layout.gap blanks) :
    isBlank char = true := by
  cases layout with
  | minified => cases member
  | pretty =>
      cases blanks with
      | nil =>
          rw [List.mem_singleton.mp member]
          rfl
      | cons first others => exact allBlank char member

theorem mem_of_mem_gap {layout : Layout} {blanks : Text} {char : Char}
    (member : char ∈ layout.gap blanks) : char ∈ blanks ∨ char = ' ' := by
  cases layout with
  | minified => cases member
  | pretty =>
      cases blanks with
      | nil => exact .inr (List.mem_singleton.mp member)
      | cons first others => exact .inl member

end Layout

namespace Condition

/-- What a layout makes of a text that is read after `front`. The blanks after the colon of a
feature are those of the layout, unless the text ends there; all else is as written. -/
inductive LaidOut (layout : Layout) : (front text out : Text) → Prop
  | done (front : Text) : LaidOut layout front [] []
  | keep {front rest out : Text} {char : Char}
      (plain : char = ':' → BeforeFeatureColon front → rest = [])
      (others : LaidOut layout (front ++ [char]) rest out) :
      LaidOut layout front (char :: rest) (char :: out)
  | feature {front blanks rest out : Text} {char : Char} (before : BeforeFeatureColon front)
      (allBlank : ∀ blank ∈ blanks, isBlank blank = true) (notBlank : isBlank char = false)
      (others : LaidOut layout (front ++ ':' :: blanks) (char :: rest) (char :: out)) :
      LaidOut layout front (':' :: blanks ++ char :: rest) (':' :: layout.gap blanks ++ char :: out)

/-! ### What the printer has seen -/

namespace State

/-- What the printer goes by, whether it is dropping blanks apart. -/
def seen (state : State) : Quoting × List Bool × Bool :=
  (state.quoting, state.functions, state.followsName)

variable {state left right : State} {char : Char}

theorem isFeatureColon_congr (same : left.seen = right.seen) (char : Char) :
    left.isFeatureColon char = right.isFeatureColon char := by
  simp only [seen, Prod.mk.injEq] at same
  simp only [isFeatureColon, same]

theorem seen_next (same : left.seen = right.seen) (char : Char) :
    (left.next char).seen = (right.next char).seen := by
  simp only [seen, Prod.mk.injEq] at same
  simp only [seen, next, same]

theorem seen_next_of_isBlank (outsideStrings : state.quoting = outside)
    (noName : state.followsName = false) (blank : isBlank char = true) :
    (state.next char).seen = state.seen := by
  have notOpener : char ≠ '(' := ne_of_isBlank blank rfl
  have notCloser : char ≠ ')' := ne_of_isBlank blank rfl
  have stays : outside.next char = outside := next_of_isPlain rfl (isPlain_of_isBlank blank)
  have notAfterName : (state.next char).followsName = false := isNameChar_eq_false_of_isBlank blank
  simp only [seen, notAfterName, noName]
  simp [next, outsideStrings, stays, notOpener, notCloser]

/-- Outside strings and names, blanks are not seen. -/
theorem seen_readAll_of_isBlank {blanks : Text} (outsideStrings : state.quoting = outside)
    (noName : state.followsName = false) (allBlank : ∀ blank ∈ blanks, isBlank blank = true) :
    (state.readAll blanks).seen = state.seen := by
  induction blanks generalizing state with
  | nil => rfl
  | cons blank others ih =>
      have first := seen_next_of_isBlank outsideStrings noName (allBlank blank List.mem_cons_self)
      have same := first
      simp only [seen, Prod.mk.injEq] at same
      have rest := ih (same.1.trans outsideStrings) (same.2.2.trans noName)
        (fun other member => allBlank other (List.mem_cons_of_mem blank member))
      exact rest.trans first

/-- The blanks after the colon of a feature are not seen. -/
theorem seen_readAll_next_colon {blanks : Text} (isFeature : state.isFeatureColon ':' = true)
    (allBlank : ∀ blank ∈ blanks, isBlank blank = true) :
    ((state.next ':').readAll blanks).seen = (state.next ':').seen := by
  simp only [isFeatureColon, Bool.and_eq_true] at isFeature
  have stays : state.quoting.next ':' = outside := by
    rw [eq_outside_of_isLive isFeature.1.1.1.1]
    rfl
  exact seen_readAll_of_isBlank stays rfl allBlank

end State

/-! ### What the printer writes -/

variable {layout : Layout} {state left right : State} {rest blanks : Text} {char : Char}

theorem formatFrom_congr (same : left.seen = right.seen)
    (sameDropping : left.dropping = right.dropping) (text : Text) :
    formatFrom layout left text = formatFrom layout right text := by
  induction text generalizing left right with
  | nil => rfl
  | cons char rest ih =>
      have sameNext := State.seen_next same char
      simp only [formatFrom, sameDropping, State.isFeatureColon_congr same]
      split
      · exact ih same sameDropping
      · split
        · cases layout with
          | pretty => rw [ih sameNext rfl]
          | minified => exact congrArg (char :: ·) (ih sameNext rfl)
        · rw [ih sameNext rfl]

/-- A colon of a feature at the end is kept as any other character. -/
theorem formatFrom_keep (notDropping : state.dropping = false)
    (plain : state.isFeatureColon char = true → rest = []) :
    formatFrom layout state (char :: rest) =
      char :: formatFrom layout (state.next char) rest := by
  by_cases isFeature : state.isFeatureColon char = true
  · rw [plain isFeature]
    cases layout <;> simp [formatFrom, notDropping, isFeature, spacing]
  · simp [formatFrom, notDropping, isFeature]

theorem formatFrom_pretty_colon (isFeature : state.isFeatureColon ':' = true)
    (notDropping : state.dropping = false) :
    formatFrom .pretty state (':' :: rest) =
      ':' :: spacing rest ++ formatFrom .pretty (state.next ':') rest := by
  simp [formatFrom, notDropping, isFeature]

theorem formatFrom_minified_colon (isFeature : state.isFeatureColon ':' = true)
    (notDropping : state.dropping = false) :
    formatFrom .minified state (':' :: rest) =
      ':' :: formatFrom .minified { state.next ':' with dropping := true } rest := by
  simp [formatFrom, notDropping, isFeature]

section Blanks

variable (allBlank : ∀ blank ∈ blanks, isBlank blank = true)

include allBlank

theorem formatFrom_append_of_isBlank (notDropping : state.dropping = false) :
    formatFrom layout state (blanks ++ rest) =
      blanks ++ formatFrom layout (state.readAll blanks) rest := by
  induction blanks generalizing state with
  | nil => rfl
  | cons blank others ih =>
      have notColon : blank ≠ ':' := ne_of_isBlank (allBlank blank List.mem_cons_self) rfl
      rw [List.cons_append, formatFrom_keep notDropping (by simp [State.isFeatureColon, notColon]),
        ih (fun other member => allBlank other (List.mem_cons_of_mem blank member)) rfl]
      rfl

theorem formatFrom_append_of_dropping (dropping : state.dropping = true)
    (notBlank : isBlank char = false) :
    formatFrom layout state (blanks ++ char :: rest) =
      formatFrom layout { state with dropping := false } (char :: rest) := by
  induction blanks with
  | nil =>
      simp only [List.nil_append, formatFrom, notBlank, Bool.and_false]
      rfl
  | cons blank others ih =>
      rw [← ih (fun other member => allBlank other (List.mem_cons_of_mem blank member))]
      simp [formatFrom, dropping, allBlank blank List.mem_cons_self]

/-- The printer replaces the blanks after the colon of a feature by those of the layout. -/
theorem formatFrom_feature (isFeature : state.isFeatureColon ':' = true)
    (notDropping : state.dropping = false) (notBlank : isBlank char = false) :
    formatFrom layout state (':' :: blanks ++ char :: rest) =
      ':' :: layout.gap blanks ++ formatFrom layout (state.next ':') (char :: rest) := by
  cases layout with
  | minified =>
      rw [List.cons_append, formatFrom_minified_colon isFeature notDropping,
        formatFrom_append_of_dropping allBlank rfl notBlank]
      rfl
  | pretty =>
      have spaced : spacing (blanks ++ char :: rest) ++ blanks = Layout.pretty.gap blanks := by
        cases blanks with
        | nil => simp [spacing, notBlank, Layout.gap]
        | cons blank others => simp [spacing, allBlank blank List.mem_cons_self, Layout.gap]
      rw [List.cons_append, formatFrom_pretty_colon isFeature notDropping,
        formatFrom_append_of_isBlank allBlank rfl,
        formatFrom_congr (State.seen_readAll_next_colon isFeature allBlank)
          (State.dropping_readAll rfl blanks),
        ← spaced]
      simp only [List.cons_append, List.append_assoc]

end Blanks

theorem exists_formatFrom_cons (layout : Layout) (notDropping : state.dropping = false)
    (char : Char) (rest : Text) :
    ∃ out, formatFrom layout state (char :: rest) = char :: out := by
  simp only [formatFrom, notDropping, Bool.false_and, Bool.false_eq_true, if_false]
  split
  · cases layout <;> exact ⟨_, rfl⟩
  · exact ⟨_, rfl⟩

/-! ### Laying out -/

variable {inner outer : Layout} {front text middle out : Text}

theorem BeforeFeatureColon.isFeatureColon (before : BeforeFeatureColon front) :
    (State.start.readAll front).isFeatureColon ':' = true :=
  isFeatureColon_readAll.mpr ⟨rfl, before⟩

theorem seen_readAll_feature (before : BeforeFeatureColon front)
    (allBlank : ∀ blank ∈ blanks, isBlank blank = true) :
    (State.start.readAll (front ++ ':' :: blanks)).seen =
      ((State.start.readAll front).next ':').seen := by
  rw [State.readAll_append]
  exact State.seen_readAll_next_colon before.isFeatureColon allBlank

theorem laidOut_formatFrom_keep
    (plain : char = ':' → BeforeFeatureColon front → rest = [])
    (others : LaidOut layout (front ++ [char]) rest
      (formatFrom layout (State.start.readAll (front ++ [char])) rest)) :
    LaidOut layout front (char :: rest)
      (formatFrom layout (State.start.readAll front) (char :: rest)) := by
  rw [formatFrom_keep (State.dropping_readAll rfl front) fun isFeature =>
    (isFeatureColon_readAll.mp isFeature).elim plain, ← State.readAll_append_singleton]
  exact .keep plain others

theorem laidOut_formatFrom_feature (before : BeforeFeatureColon front)
    (allBlank : ∀ blank ∈ blanks, isBlank blank = true) (notBlank : isBlank char = false)
    (others : LaidOut layout (front ++ ':' :: blanks) (char :: rest)
      (formatFrom layout (State.start.readAll (front ++ ':' :: blanks)) (char :: rest))) :
    LaidOut layout front (':' :: blanks ++ char :: rest)
      (formatFrom layout (State.start.readAll front) (':' :: blanks ++ char :: rest)) := by
  rw [formatFrom_congr (seen_readAll_feature before allBlank) (State.dropping_readAll rfl _)]
    at others
  rw [formatFrom_feature allBlank before.isFeatureColon (State.dropping_readAll rfl front) notBlank]
  have goesOn : ((State.start.readAll front).next ':').dropping = false := rfl
  rcases exists_formatFrom_cons layout goesOn char rest with ⟨out, written⟩
  rw [written] at others ⊢
  exact .feature before allBlank notBlank others

/-- The printer lays a text out, if the text does not end in a blank. -/
theorem laidOut_formatFrom (layout : Layout) (front text : Text)
    (finish : ∀ char ∈ text.getLast?, isBlank char = false) :
    LaidOut layout front text (formatFrom layout (State.start.readAll front) text) := by
  -- The blanks after a colon are read in one step with it, so the recursion is on the length.
  match text with
  | [] => exact .done front
  | char :: rest =>
      by_cases plain : char = ':' → BeforeFeatureColon front → rest = []
      · refine laidOut_formatFrom_keep plain
          (laidOut_formatFrom layout (front ++ [char]) rest fun last isLast => finish last ?_)
        rw [List.getLast?_cons, Option.mem_def.mp isLast]
        rfl
      · simp only [Classical.not_imp] at plain
        rcases plain with ⟨rfl, before, more⟩
        rcases Text.exists_eq_blanks_append rest with ⟨blanks, others, rfl, allBlank, noMoreBlanks⟩
        cases others with
        | nil =>
            rcases List.eq_nil_or_concat' blanks with rfl | ⟨init, last, rfl⟩
            · exact absurd rfl more
            · have notBlank := finish last (by simp [List.getLast?_cons])
              rw [allBlank last (by simp)] at notBlank
              cases notBlank
        | cons next others =>
            refine laidOut_formatFrom_feature before allBlank (noMoreBlanks next rfl)
              (laidOut_formatFrom layout (front ++ ':' :: blanks) (next :: others)
                fun last isLast => finish last ?_)
            rw [← List.cons_append, List.getLast?_append, Option.mem_def.mp isLast]
            rfl
termination_by text.length

namespace LaidOut

theorem head?_eq (laidOut : LaidOut layout front text out) : out.head? = text.head? := by
  cases laidOut <;> rfl

theorem getLast?_eq (laidOut : LaidOut layout front text out) :
    out.getLast? = text.getLast? := by
  induction laidOut with
  | done front => rfl
  | keep plain others ih => rw [List.getLast?_cons, List.getLast?_cons, ih]
  | feature before allBlank notBlank others ih =>
      rw [List.getLast?_append, List.getLast?_append, ih, List.getLast?_cons]
      rfl

theorem filter_eq (laidOut : LaidOut layout front text out) :
    out.filter (!isBlank ·) = text.filter (!isBlank ·) := by
  induction laidOut with
  | done front => rfl
  | keep plain others ih => rw [List.filter_cons, List.filter_cons, ih]
  | feature before allBlank notBlank others ih =>
      have gone : ∀ {blanks : Text}, (∀ blank ∈ blanks, isBlank blank = true) →
          (':' :: blanks).filter (!isBlank ·) = [':'] := by
        intro blanks allBlank
        rw [List.filter_cons, Text.filter_eq_nil_of_isBlank allBlank]
        rfl
      rw [List.filter_append, List.filter_append, ih, gone allBlank,
        gone fun _ => Layout.isBlank_of_mem_gap allBlank]

/-- A layout adds nothing but spaces. -/
theorem mem_or_eq_space (laidOut : LaidOut layout front text out) {written : Char}
    (member : written ∈ out) : written ∈ text ∨ written = ' ' := by
  induction laidOut with
  | done front => exact .inl member
  | keep plain others ih =>
      rcases List.mem_cons.mp member with rfl | later
      · exact .inl List.mem_cons_self
      · exact (ih later).imp_left (List.mem_cons_of_mem _)
  | feature before allBlank notBlank others ih =>
      simp only [List.cons_append, List.mem_cons, List.mem_append] at member ⊢
      rcases member with isColon | inGap | later
      · exact .inl (.inl isColon)
      · exact (Layout.mem_of_mem_gap inGap).imp_left fun inBlanks => .inr (.inl inBlanks)
      · exact (ih (List.mem_cons.mpr later)).imp_left fun inRest =>
          .inr (.inr (List.mem_cons.mp inRest))

theorem isTrimmed (laidOut : LaidOut layout front text out) (trimmed : text.IsTrimmed) :
    out.IsTrimmed := by
  constructor
  · rw [laidOut.head?_eq]
    exact trimmed.start
  · rw [laidOut.getLast?_eq]
    exact trimmed.finish

/-- A layout that asks for the same blanks whatever another one has left does so in every text. -/
theorem formatFrom_eq (laidOut : LaidOut inner front text middle)
    (absorbs : ∀ blanks, outer.gap (inner.gap blanks) = outer.gap blanks)
    (same : state.seen = (State.start.readAll front).seen) (notDropping : state.dropping = false) :
    formatFrom outer state middle = formatFrom outer state text := by
  induction laidOut generalizing state with
  | done front => rfl
  | @keep front rest out char plain others ih =>
      -- A colon of a feature is kept at the end only, and that is the end of what was written, too.
      have restEmpty (isFeature : state.isFeatureColon char = true) : rest = [] := by
        rw [State.isFeatureColon_congr same, isFeatureColon_readAll] at isFeature
        exact plain isFeature.1 isFeature.2
      have outEmpty (isFeature : state.isFeatureColon char = true) : out = [] := by
        rw [← List.head?_eq_none_iff, others.head?_eq, restEmpty isFeature]
        rfl
      have sameNext : (state.next char).seen = (State.start.readAll (front ++ [char])).seen := by
        rw [State.readAll_append_singleton]
        exact State.seen_next same char
      rw [formatFrom_keep notDropping outEmpty, formatFrom_keep notDropping restEmpty,
        ih sameNext rfl]
  | @feature front blanks rest out char before allBlank notBlank others ih =>
      have isFeature : state.isFeatureColon ':' = true :=
        (State.isFeatureColon_congr same ':').trans before.isFeatureColon
      have sameNext := (State.seen_next same ':').trans (seen_readAll_feature before allBlank).symm
      rw [formatFrom_feature (fun _ => Layout.isBlank_of_mem_gap allBlank) isFeature notDropping
          notBlank,
        formatFrom_feature allBlank isFeature notDropping notBlank, absorbs, ih sameNext rfl]

end LaidOut

/-! ### Conditions as a whole -/

theorem laidOut_format (layout : Layout) (condition : Text) :
    LaidOut layout [] condition.trim (format layout condition) :=
  laidOut_formatFrom layout [] condition.trim (Text.isTrimmed_trim condition).finish

theorem notMem_format {char : Char} {condition : Text} (lacks : char ∉ condition)
    (notSpace : char ≠ ' ') (layout : Layout) : char ∉ format layout condition := by
  intro member
  rcases (laidOut_format layout condition).mem_or_eq_space member with inCondition | isSpace
  · exact lacks (Text.mem_of_mem_trim inCondition)
  · exact notSpace isSpace

theorem format_format (absorbs : ∀ blanks, outer.gap (inner.gap blanks) = outer.gap blanks)
    (condition : Text) : format outer (format inner condition) = format outer condition := by
  have laidOut := laidOut_format inner condition
  rw [format, (laidOut.isTrimmed (Text.isTrimmed_trim condition)).trim_eq]
  exact laidOut.formatFrom_eq absorbs rfl rfl

/-- Formatting normalizes the blanks of a condition. -/
theorem format_normalizes (condition : Text) :
    (∀ layout, format layout (format layout condition) = format layout condition) ∧
    format .minified (format .pretty condition) = format .minified condition ∧
    ∀ layout, (format layout condition).filter (!isBlank ·) = condition.filter (!isBlank ·) ∧
      LaidOut layout [] condition.trim (format layout condition) := by
  refine ⟨fun layout => format_format layout.gap_gap condition,
    format_format (fun _ => rfl) condition, fun layout => ?_⟩
  have laidOut := laidOut_format layout condition
  exact ⟨laidOut.filter_eq.trans (Text.filter_trim condition), laidOut⟩

example : format .pretty ")(a:b) or (not (c:d)) or (selector(e:f))" =
    ")(a: b) or (not (c: d)) or (selector(e:f))" := by
  decide +kernel

end Condition

end AtomicCss
