import AtomicCss.Text.Blank

/-!
# Taking texts apart

The operations that take something off the end of a text, stated as equations between the text and
its parts.
-/

namespace AtomicCss.Text

theorem after?_eq_some_iff {text lead rest : Text} :
    text.after? lead = some rest ↔ text = lead ++ rest := by
  induction lead generalizing text with
  | nil => cases text <;> simp [after?]
  | cons expected lead ih =>
      cases text with
      | nil => simp [after?]
      | cons char text =>
          simp only [after?, List.cons_append, List.cons.injEq]
          by_cases same : char = expected
          · simp [same, ih]
          · simp [same]

theorem after?_eq_none_iff {text lead : Text} : text.after? lead = none ↔ ¬lead <+: text := by
  rw [Option.eq_none_iff_forall_ne_some, List.IsPrefix, not_exists]
  exact forall_congr' fun rest => not_congr (after?_eq_some_iff.trans eq_comm)

theorem before?_eq_some_iff {mark : Char} {text front : Text} :
    text.before? mark = some front ↔ text = front ++ [mark] := by
  induction text generalizing front with
  | nil => simp [before?]
  | cons char rest ih =>
      cases rest with
      | nil =>
          by_cases isMark : char = mark
          · cases front <;> simp [before?, isMark]
          · cases front <;> simp [before?, isMark]
      | cons next rest =>
          simp only [before?, Option.map_eq_some_iff]
          constructor
          · rintro ⟨front, found, rfl⟩
            rw [ih.mp found]
            rfl
          · intro splits
            cases front with
            | nil => simp at splits
            | cons first front =>
                simp only [List.cons_append, List.cons.injEq] at splits
                rcases splits with ⟨rfl, splits⟩
                exact ⟨front, ih.mpr splits, rfl⟩

theorem replaceFirst?_self (needle replacement : Text) :
    replaceFirst? needle needle replacement = some replacement := by
  have starts : needle.after? needle = some [] := by
    rw [after?_eq_some_iff]
    simp
  cases needle <;> simp [replaceFirst?, starts]

theorem cutFirst?_eq_some_iff {mark : Char} {text left right : Text} :
    text.cutFirst? mark = some (left, right) ↔ text = left ++ mark :: right ∧ mark ∉ left := by
  induction text generalizing left with
  | nil => simp [cutFirst?]
  | cons char rest ih =>
      by_cases isMark : char = mark
      · subst isMark
        cases left with
        | nil => simp [cutFirst?, eq_comm]
        | cons first left =>
            simp only [cutFirst?, if_true, Option.some.injEq, Prod.mk.injEq, List.cons_append,
              List.cons.injEq, List.mem_cons, not_or]
            constructor
            · rintro ⟨empty, -⟩
              cases empty
            · rintro ⟨⟨rfl, -⟩, notFirst, -⟩
              exact absurd rfl notFirst
      · simp only [cutFirst?, isMark, if_false, Option.map_eq_some_iff, Prod.exists,
          Prod.mk.injEq]
        constructor
        · rintro ⟨front, back, found, rfl, rfl⟩
          rcases ih.mp found with ⟨rfl, notMem⟩
          exact ⟨rfl, by simp [notMem, Ne.symm isMark]⟩
        · rintro ⟨splits, notMem⟩
          cases left with
          | nil => exact absurd (List.cons.inj splits).1 isMark
          | cons first left =>
              rcases List.cons.inj splits with ⟨rfl, splitsRest⟩
              rw [List.mem_cons, not_or] at notMem
              exact ⟨left, right, ih.mpr ⟨splitsRest, notMem.2⟩, rfl, rfl⟩

theorem cutFirst?_eq_some {mark : Char} {text left right : Text}
    (cut : text.cutFirst? mark = some (left, right)) : text = left ++ mark :: right :=
  (cutFirst?_eq_some_iff.mp cut).1

/-- A text has only one place where a mark stands for the first time. -/
theorem append_mark_inj {mark : Char} {left otherLeft right otherRight : Text}
    (notMem : mark ∉ left) (otherNotMem : mark ∉ otherLeft)
    (same : left ++ mark :: right = otherLeft ++ mark :: otherRight) :
    left = otherLeft ∧ right = otherRight := by
  have cut : cutFirst? mark (left ++ mark :: right) = some (left, right) :=
    cutFirst?_eq_some_iff.mpr ⟨rfl, notMem⟩
  have otherCut := cutFirst?_eq_some_iff.mpr ⟨same, otherNotMem⟩
  exact Prod.mk.inj (Option.some.inj (cut.symm.trans otherCut))

theorem cutLast?_eq_some {mark : Char} {text left right : Text}
    (cut : text.cutLast? mark = some (left, right)) : text = left ++ mark :: right := by
  induction text generalizing left with
  | nil => cases cut
  | cons char rest ih =>
      simp only [cutLast?] at cut
      cases later : cutLast? mark rest with
      | some parts =>
          rcases parts with ⟨front, back⟩
          simp only [later, Option.some.injEq, Prod.mk.injEq] at cut
          rcases cut with ⟨rfl, rfl⟩
          rw [ih later]
          rfl
      | none =>
          simp only [later] at cut
          split at cut
          · rename_i isMark
            cases cut
            rw [isMark]
            rfl
          · cases cut

theorem cutLast?_eq_none_iff {mark : Char} {text : Text} :
    text.cutLast? mark = none ↔ mark ∉ text := by
  induction text with
  | nil => simp [cutLast?]
  | cons char rest ih =>
      simp only [cutLast?, List.mem_cons, not_or]
      cases later : cutLast? mark rest with
      | some parts =>
          have inRest : mark ∈ rest := by
            rw [cutLast?_eq_some later]
            simp
          simp [inRest]
      | none =>
          by_cases isMark : char = mark
          · simp [isMark]
          · simp [isMark, Ne.symm isMark, ih.mp later]

theorem notMem_of_cutLast? {mark : Char} {text left right : Text}
    (cut : text.cutLast? mark = some (left, right)) : mark ∉ right := by
  induction text generalizing left with
  | nil => cases cut
  | cons char rest ih =>
      simp only [cutLast?] at cut
      split at cut
      · rename_i front back later
        cases cut
        exact ih later
      · rename_i noMark
        split at cut
        · cases cut
          exact cutLast?_eq_none_iff.mp noMark
        · cases cut

theorem cutLast?_append_mark {mark : Char} (left : Text) {right : Text} (notMem : mark ∉ right) :
    (left ++ mark :: right).cutLast? mark = some (left, right) := by
  induction left with
  | nil => simp [cutLast?, cutLast?_eq_none_iff.mpr notMem]
  | cons char left ih => simp [cutLast?, ih]

theorem cutLast?_eq_some_iff {mark : Char} {text left right : Text} :
    text.cutLast? mark = some (left, right) ↔ text = left ++ mark :: right ∧ mark ∉ right := by
  constructor
  · exact fun cut => ⟨cutLast?_eq_some cut, notMem_of_cutLast? cut⟩
  · rintro ⟨rfl, notMem⟩
    exact cutLast?_append_mark left notMem

theorem exists_eq_dropEndWhile_append (drop : Char → Bool) (text : Text) :
    ∃ dropped, text = text.dropEndWhile drop ++ dropped ∧ ∀ char ∈ dropped, drop char = true := by
  induction text with
  | nil => exact ⟨[], by simp [dropEndWhile]⟩
  | cons char rest ih =>
      rcases ih with ⟨dropped, splits, allDropped⟩
      simp only [dropEndWhile]
      cases kept : dropEndWhile drop rest with
      | nil =>
          rw [kept, List.nil_append] at splits
          by_cases drops : drop char = true
          · refine ⟨char :: dropped, by simp [drops, splits], ?_⟩
            intro other member
            rcases List.mem_cons.mp member with rfl | member
            · exact drops
            · exact allDropped other member
          · exact ⟨dropped, by simp [drops, splits], allDropped⟩
      | cons next others =>
          rw [kept] at splits
          exact ⟨dropped, by simp [splits], allDropped⟩

theorem exists_eq_append_trim_append (text : Text) :
    ∃ front back, text = front ++ text.trim ++ back ∧ (∀ char ∈ front, isBlank char = true) ∧
      ∀ char ∈ back, isBlank char = true := by
  rcases exists_eq_dropEndWhile_append isBlank text.trimStart with ⟨back, splits, allBlank⟩
  refine ⟨text.takeWhile isBlank, back, ?_, ?_, allBlank⟩
  · rw [List.append_assoc]
    change text = text.takeWhile isBlank ++ (text.trimStart.dropEndWhile isBlank ++ back)
    rw [← splits]
    exact List.takeWhile_append_dropWhile.symm
  · intro char member
    exact List.all_eq_true.mp List.all_takeWhile char member

theorem mem_of_mem_trim {text : Text} {char : Char} (member : char ∈ text.trim) : char ∈ text := by
  rcases exists_eq_append_trim_append text with ⟨front, back, splits, -, -⟩
  rw [splits]
  simp [member]

theorem isBlank_head?_trimStart {text : Text} {char : Char} (first : char ∈ text.trimStart.head?) :
    isBlank char = false := by
  have notBlank := List.head?_dropWhile_not isBlank text
  rw [trimStart, Option.mem_def] at first
  rw [first] at notBlank
  simpa using notBlank

theorem exists_eq_blanks_append (text : Text) :
    ∃ blanks rest, text = blanks ++ rest ∧ (∀ blank ∈ blanks, isBlank blank = true) ∧
      ∀ char ∈ rest.head?, isBlank char = false :=
  ⟨text.takeWhile isBlank, text.trimStart, List.takeWhile_append_dropWhile.symm,
    List.all_eq_true.mp List.all_takeWhile, fun _ first => isBlank_head?_trimStart first⟩

theorem filter_eq_nil_of_isBlank {blanks : Text}
    (allBlank : ∀ blank ∈ blanks, isBlank blank = true) : blanks.filter (!isBlank ·) = [] := by
  rw [List.filter_eq_nil_iff]
  intro blank member
  simp [allBlank blank member]

theorem filter_trim (text : Text) : text.trim.filter (!isBlank ·) = text.filter (!isBlank ·) := by
  rcases exists_eq_append_trim_append text with ⟨front, back, splits, frontBlank, backBlank⟩
  conv => rhs; rw [splits]
  rw [List.filter_append, List.filter_append, filter_eq_nil_of_isBlank frontBlank,
    filter_eq_nil_of_isBlank backBlank, List.nil_append, List.append_nil]

/-- Whether a text has no blank at either end. -/
structure IsTrimmed (text : Text) : Prop where
  start : ∀ char ∈ text.head?, isBlank char = false
  finish : ∀ char ∈ text.getLast?, isBlank char = false

theorem head?_dropEndWhile {drop : Char → Bool} {text : Text} {char : Char}
    (first : char ∈ (text.dropEndWhile drop).head?) : char ∈ text.head? := by
  rcases exists_eq_dropEndWhile_append drop text with ⟨dropped, splits, -⟩
  rw [splits, List.head?_append, Option.mem_def, Option.or_eq_some_iff]
  exact .inl first

theorem drop_getLast?_dropEndWhile {drop : Char → Bool} {text : Text} {char : Char}
    (last : char ∈ (text.dropEndWhile drop).getLast?) : drop char = false := by
  induction text with
  | nil => cases last
  | cons first rest ih =>
      simp only [dropEndWhile] at last
      cases kept : dropEndWhile drop rest with
      | nil =>
          rw [kept] at last
          by_cases drops : drop first = true
          · simp [drops] at last
          · simp only [drops, Bool.false_eq_true, if_false, List.getLast?_singleton,
              Option.mem_def, Option.some.injEq] at last
            rwa [last, Bool.not_eq_true] at drops
      | cons next others =>
          rw [kept] at last ih
          exact ih (by simpa only [List.getLast?_cons_cons] using last)

theorem isTrimmed_trim (text : Text) : IsTrimmed text.trim where
  start _ first := isBlank_head?_trimStart (head?_dropEndWhile first)
  finish _ last := drop_getLast?_dropEndWhile last

theorem dropEndWhile_eq_self {drop : Char → Bool} {text : Text}
    (kept : ∀ char ∈ text.getLast?, drop char = false) : text.dropEndWhile drop = text := by
  induction text with
  | nil => rfl
  | cons first rest ih =>
      cases rest with
      | nil => simp [dropEndWhile, kept first rfl]
      | cons next others =>
          rw [List.getLast?_cons_cons] at kept
          rw [dropEndWhile, ih kept]

theorem IsTrimmed.trim_eq {text : Text} (isTrimmed : IsTrimmed text) : text.trim = text := by
  have startKept : text.trimStart = text := by
    cases text with
    | nil => rfl
    | cons first rest => exact List.dropWhile_cons_of_neg (by simp [isTrimmed.start first rfl])
  rw [trim, startKept]
  exact dropEndWhile_eq_self isTrimmed.finish

end AtomicCss.Text
