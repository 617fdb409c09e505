import Mathlib.Data.List.Forall2

/-!
# Asking in turn

Several readers are asked in turn, and the first of them that has a reading decides. Where at most
one of them has one, their order does not matter; and those that have none may be left out. The same
holds where the readings of all of them are collected.
-/

namespace AtomicCss

variable {Entry Reading : Type} {read : Entry → Option Reading}

/-- Where at most one entry has a reading, their order does not matter. -/
theorem findSome?_eq_of_perm
    (unique : ∀ first second, (read first).isSome = true → (read second).isSome = true →
      first = second) {left right : List Entry} (same : left.Perm right) :
    left.findSome? read = right.findSome? read := by
  induction same with
  | nil => rfl
  | cons entry _ ih => rw [List.findSome?_cons, List.findSome?_cons, ih]
  | swap first second rest =>
      simp only [List.findSome?_cons]
      cases firstEq : read first with
      | none => rfl
      | some reading =>
          cases secondEq : read second with
          | none => rfl
          | some other =>
              have sameEntry := unique first second (by simp [firstEq]) (by simp [secondEq])
              rw [← firstEq, ← secondEq, sameEntry]
  | trans _ _ ihLeft ihRight => exact ihLeft.trans ihRight

theorem findSome?_filter_of_silent {keep : Entry → Bool}
    (silent : ∀ entry, keep entry = false → read entry = none) (entries : List Entry) :
    (entries.filter keep).findSome? read = entries.findSome? read := by
  induction entries with
  | nil => rfl
  | cons entry entries ih =>
      cases kept : keep entry with
      | true => rw [List.filter_cons_of_pos kept, List.findSome?_cons, List.findSome?_cons, ih]
      | false =>
          rw [List.filter_cons_of_neg (by simp [kept]), List.findSome?_cons, silent entry kept, ih]

/-- Readers that agree on the entries in front find the same, if there is a reading among these. -/
theorem findSome?_append_congr {other : Entry → Option Reading} {front back : List Entry}
    (same : ∀ entry ∈ front, read entry = other entry) {entry : Entry} (member : entry ∈ front)
    (reads : (read entry).isSome = true) :
    (front ++ back).findSome? read = (front ++ back).findSome? other := by
  induction front with
  | nil => cases member
  | cons first front ih =>
      rw [List.cons_append, List.findSome?_cons, List.findSome?_cons,
        ← same first List.mem_cons_self]
      cases firstEq : read first with
      | some reading => rfl
      | none =>
          rcases List.mem_cons.mp member with rfl | later
          · rw [firstEq] at reads
            cases reads
          · exact ih (fun entry inFront => same entry (List.mem_cons_of_mem first inFront)) later

/-- Where only one entry has a reading, that reading is found. -/
theorem findSome?_eq_of_unique {entries : List Entry} {entry : Entry} {reading : Reading}
    (member : entry ∈ entries) (reads : read entry = some reading)
    (unique : ∀ other, (read other).isSome = true → other = entry) :
    entries.findSome? read = some reading := by
  cases found : entries.findSome? read with
  | none =>
      rw [List.findSome?_eq_none_iff] at found
      rw [found entry member] at reads
      cases reads
  | some first =>
      rcases List.exists_of_findSome?_eq_some found with ⟨other, -, otherReads⟩
      have isEntry := unique other (by simp [otherReads])
      rw [isEntry, reads] at otherReads
      exact otherReads.symm

/-! ### All readings -/

/-- What is read in the entries that are kept, if keeping them makes another reader. -/
theorem filterMap_filter_eq {keptRead : Entry → Option Reading} {keep : Entry → Bool}
    (passes : ∀ entry, (if keep entry then read entry else none) = keptRead entry)
    (entries : List Entry) : (entries.filter keep).filterMap read = entries.filterMap keptRead := by
  simp only [List.filterMap_filter, passes]

/-- Where every entry has a reading, there is one reading for each entry, in their order. -/
theorem forall₂_filterMap {Reads : Entry → Reading → Prop} {entries : List Entry}
    (reads : ∀ entry ∈ entries, ∃ reading, read entry = some reading ∧ Reads entry reading) :
    List.Forall₂ Reads entries (entries.filterMap read) := by
  induction entries with
  | nil => exact .nil
  | cons entry entries ih =>
      rcases reads entry List.mem_cons_self with ⟨reading, readEq, isReading⟩
      rw [List.filterMap_cons_some readEq]
      exact .cons isReading (ih fun other member => reads other (List.mem_cons_of_mem entry member))

end AtomicCss
