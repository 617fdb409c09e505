import AtomicCss.Text.Basic

/-!
# Variants

A variant narrows when or where a utility applies. Some variants wrap the rule in an at-rule,
others change its selector; of the latter, the named ones come from the vocabulary and the
arbitrary ones are fragments that the author wrote.
-/

namespace AtomicCss

namespace Variant

inductive Kind
  | responsive
  | pseudoClass
  | pseudoElement
  | aria
  | data
  | supports
  | minWidth
  | maxWidth
  | mediaFeature
  | arbitrarySelector
  | arbitraryMedia
  deriving DecidableEq, Repr

namespace Kind

/-- All kinds, in the order of their declaration. -/
def all : List Kind :=
  [.responsive, .pseudoClass, .pseudoElement, .aria, .data, .supports, .minWidth, .maxWidth,
    .mediaFeature, .arbitrarySelector, .arbitraryMedia]

/-- The name under which a kind is reported. -/
def name : Kind → String
  | .responsive => "Responsive"
  | .pseudoClass => "PseudoClass"
  | .pseudoElement => "PseudoElement"
  | .aria => "Aria"
  | .data => "Data"
  | .supports => "Supports"
  | .minWidth => "MinWidth"
  | .maxWidth => "MaxWidth"
  | .mediaFeature => "MediaFeature"
  | .arbitrarySelector => "ArbitrarySelector"
  | .arbitraryMedia => "ArbitraryMedia"

/-- Whether variants of this kind wrap the rule and leave its selector alone. -/
def isAtRule : Kind → Bool
  | .responsive | .supports | .minWidth | .maxWidth | .mediaFeature | .arbitraryMedia => true
  | _ => false

/-- Whether variants of this kind change the selector in a way that the vocabulary fixes. -/
def isNamedSelector : Kind → Bool
  | .pseudoClass | .pseudoElement | .aria | .data => true
  | _ => false

end Kind

end Variant

/-- A classified segment of a candidate: its kind, the segment as written, and the text that the
kind works with. That text is a selector suffix for pseudo-classes and pseudo-elements, the inside
of an attribute selector for `aria` and `data`, a length for widths and screens, a condition for
`supports`, a query for media variants, and a fragment for arbitrary selectors. -/
structure Variant where
  kind : Variant.Kind
  written : Text
  parameter : Text
  deriving DecidableEq, Repr

end AtomicCss
