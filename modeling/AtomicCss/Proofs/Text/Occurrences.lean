import AtomicCss.Proofs.Text.Affixes

/-!
# Occurrences

A text occurs in another one wherever the latter can be cut into something before it, the text
itself and something after it. Occurrences may overlap. They are listed from the left, and replacing
the first occurrence replaces the head of that list, which is the leftmost of them.
-/

namespace AtomicCss.Text

/-- What stands before and after each occurrence of `needle`, from the left. -/
def occurrences (needle : Text) : Text → List (Text × Text)
  | [] => ((after? [] needle).map (([], ·))).toList
  | char :: rest =>
      ((after? (char :: rest) needle).map (([], ·))).toList ++
        (occurrences needle rest).map fun (front, back) => (char :: front, back)

/-- Whether `needle` stands between `front` and `back`, and nowhere further to the left. -/
structure IsLeftmost (text needle front back : Text) : Prop where
  occurs : text = front ++ needle ++ back
  leftmost : ∀ otherFront otherBack, text = otherFront ++ needle ++ otherBack →
    front.length ≤ otherFront.length

variable {text needle front back : Text}

theorem mem_occurrences_iff :
    (front, back) ∈ occurrences needle text ↔ text = front ++ needle ++ back := by
  induction text generalizing front with
  | nil => cases front <;> simp [occurrences, after?_eq_some_iff, and_comm]
  | cons char rest ih =>
      cases front with
      | nil => simp [occurrences, after?_eq_some_iff]
      | cons first front =>
          have notHere : (first :: front, back) ∉
              ((after? (char :: rest) needle).map (([], ·))).toList := by
            cases after? (char :: rest) needle <;> simp
          simp only [occurrences, List.mem_append, notHere, false_or, List.mem_map, Prod.exists,
            Prod.mk.injEq, List.cons.injEq, List.cons_append]
          constructor
          · rintro ⟨_, _, later, ⟨rfl, rfl⟩, rfl⟩
            exact ⟨rfl, ih.mp later⟩
          · rintro ⟨rfl, occurs⟩
            exact ⟨front, back, ih.mpr occurs, ⟨rfl, rfl⟩, rfl⟩

theorem occurrences_eq_nil_iff : occurrences needle text = [] ↔ ¬needle <:+: text := by
  rw [List.eq_nil_iff_forall_not_mem, Prod.forall]
  simp only [mem_occurrences_iff, List.IsInfix, not_exists, eq_comm]

/-- At most one occurrence has none to its left. -/
theorem IsLeftmost.unique {otherFront otherBack : Text}
    (here : IsLeftmost text needle front back)
    (there : IsLeftmost text needle otherFront otherBack) :
    front = otherFront ∧ back = otherBack := by
  have sameLength : front.length = otherFront.length :=
    Nat.le_antisymm (here.leftmost _ _ there.occurs) (there.leftmost _ _ here.occurs)
  have sameText := here.occurs.symm.trans there.occurs
  simp only [List.append_assoc] at sameText
  rcases List.append_inj sameText sameLength with ⟨sameFront, sameRest⟩
  exact ⟨sameFront, List.append_cancel_left sameRest⟩

theorem isLeftmost_of_head? (first : (occurrences needle text).head? = some (front, back)) :
    IsLeftmost text needle front back := by
  refine ⟨mem_occurrences_iff.mp (List.mem_of_head? first), ?_⟩
  induction text generalizing front with
  | nil =>
      intro otherFront otherBack _
      have occurs := mem_occurrences_iff.mp (List.mem_of_head? first)
      simp_all
  | cons char rest ih =>
      intro otherFront otherBack occurs
      cases starts : after? (char :: rest) needle with
      | some _ => simp_all [occurrences]
      | none =>
          simp only [occurrences, starts, Option.map_none, Option.toList_none, List.nil_append,
            List.head?_map, Option.map_eq_some_iff, Prod.mk.injEq] at first
          rcases first with ⟨⟨front, back⟩, firstOfRest, rfl, rfl⟩
          cases otherFront with
          | nil =>
              have here : after? (char :: rest) needle = some otherBack :=
                after?_eq_some_iff.mpr occurs
              rw [starts] at here
              cases here
          | cons other otherFront =>
              simp only [List.cons_append, List.cons.injEq] at occurs
              exact Nat.succ_le_succ (ih firstOfRest otherFront otherBack occurs.2)

theorem head?_occurrences_eq_some_iff :
    (occurrences needle text).head? = some (front, back) ↔ IsLeftmost text needle front back := by
  refine ⟨isLeftmost_of_head?, fun here => ?_⟩
  cases first : (occurrences needle text).head? with
  | none =>
      rw [List.head?_eq_none_iff] at first
      exact absurd (mem_occurrences_iff.mpr here.occurs) (by simp [first])
  | some pair =>
      rcases (isLeftmost_of_head? first).unique here with ⟨sameFront, sameBack⟩
      rw [← sameFront, ← sameBack]

instance : Decidable (IsLeftmost text needle front back) :=
  decidable_of_iff _ head?_occurrences_eq_some_iff

theorem replaceFirst?_eq (text needle replacement : Text) :
    text.replaceFirst? needle replacement =
      (occurrences needle text).head?.map fun (front, back) => front ++ replacement ++ back := by
  induction text with
  | nil => cases starts : after? [] needle <;> simp [replaceFirst?, occurrences, starts]
  | cons char rest ih =>
      cases starts : after? (char :: rest) needle with
      | some back => simp [replaceFirst?, occurrences, starts]
      | none =>
          simp only [replaceFirst?, occurrences, starts, ih, Option.map_none, Option.toList_none,
            List.nil_append, List.head?_map, Option.map_map]
          rfl

theorem replaceFirst?_of_isLeftmost (here : IsLeftmost text needle front back)
    (replacement : Text) :
    text.replaceFirst? needle replacement = some (front ++ replacement ++ back) := by
  rw [replaceFirst?_eq, head?_occurrences_eq_some_iff.mpr here]
  rfl

theorem replaceFirst?_eq_none_iff {replacement : Text} :
    text.replaceFirst? needle replacement = none ↔ ¬needle <:+: text := by
  rw [replaceFirst?_eq, Option.map_eq_none_iff, List.head?_eq_none_iff, occurrences_eq_nil_iff]

theorem exists_isLeftmost (occurs : needle <:+: text) :
    ∃ front back, IsLeftmost text needle front back := by
  cases first : (occurrences needle text).head? with
  | none =>
      rw [List.head?_eq_none_iff, occurrences_eq_nil_iff] at first
      exact absurd occurs first
  | some pair => exact ⟨pair.1, pair.2, isLeftmost_of_head? first⟩

end AtomicCss.Text
