import AtomicCss.Dictionary

/-!
# Looking up entries

What is found under a key is an entry of the dictionary, and an overlay decides about its own keys
only.
-/

namespace AtomicCss.Dictionary

variable {Value : Type}

theorem mem_of_lookup_eq_some {entries : Dictionary Value} {key : Text} {value : Value}
    (found : entries.lookup key = some value) : (key, value) ∈ entries := by
  rw [List.lookup_eq_some_iff] at found
  rcases found with ⟨before, after, splits, -⟩
  simp [splits]

theorem lookup_filter_of_keeps (keep : Text → Bool) {key : Text} (keeps : keep key = true)
    (entries : Dictionary Value) :
    (entries.filter fun entry => keep entry.1).lookup key = entries.lookup key := by
  induction entries with
  | nil => rfl
  | cons entry entries ih =>
      rcases entry with ⟨name, value⟩
      by_cases same : key = name
      · subst same
        simp [keeps]
      · have other : (key == name) = false := by simpa using same
        by_cases kept : keep name = true
        · simp [kept, List.lookup_cons, other, ih]
        · simp [kept, List.lookup_cons, other, ih]

/-- An entry of the upper dictionary hides the one of the lower dictionary. -/
theorem lookup_overlay (lower upper : Dictionary Value) (key : Text) :
    (overlay lower upper).lookup key = (upper.lookup key).or (lower.lookup key) := by
  rw [overlay, List.lookup_append]
  cases found : upper.lookup key with
  | some value => rfl
  | none =>
      have keeps : (upper.lookup key).isNone = true := by rw [found]; rfl
      exact lookup_filter_of_keeps (fun name => (upper.lookup name).isNone) keeps lower

/-- A change of values that keeps the keys changes what is found under a key. -/
theorem lookup_map_of_keys {Changed : Type} (change : Text → Value → Changed)
    (entries : Dictionary Value) (key : Text) :
    (entries.map fun (key, value) => (key, change key value)).lookup key =
      (entries.lookup key).map (change key) := by
  induction entries with
  | nil => rfl
  | cons entry entries ih =>
      rcases entry with ⟨name, value⟩
      by_cases same : key = name
      · subst same
        simp
      · have other : (key == name) = false := by simpa using same
        simp [List.lookup_cons, other, ih]

end AtomicCss.Dictionary
