import AtomicCss.Text.Basic

/-!
# Dictionaries

Finite maps from texts, as lists of entries. Of several entries for a key the first counts, and
`List.lookup` finds it.
-/

namespace AtomicCss

/-- A finite map from texts to `Value`. -/
abbrev Dictionary (Value : Type) := List (Text × Value)

namespace Dictionary

variable {Value : Type}

/-- The entries of `upper`, and those of `lower` for all other keys. -/
def overlay (lower upper : Dictionary Value) : Dictionary Value :=
  upper ++ lower.filter fun (key, _) => (upper.lookup key).isNone

end Dictionary

end AtomicCss
