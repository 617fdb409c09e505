import AtomicCss.Variant.Basic

/-!
# The named variants

The fixed words of the vocabulary: pseudo-classes, pseudo-elements and media features with the text
that each one stands for, and the states that the bare `aria-` form knows.
-/

namespace AtomicCss.Variant

/-- Words for pseudo-classes and other conditions on the element itself, with the suffix that each
adds to a selector. -/
def pseudoClasses : List (Text × Text) :=
  [("hover", ":hover"),
    ("focus", ":focus"),
    ("focus-within", ":focus-within"),
    ("focus-visible", ":focus-visible"),
    ("active", ":active"),
    ("visited", ":visited"),
    ("target", ":target"),
    ("first", ":first-child"),
    ("last", ":last-child"),
    ("only", ":only-child"),
    ("odd", ":nth-child(odd)"),
    ("even", ":nth-child(even)"),
    ("first-of-type", ":first-of-type"),
    ("last-of-type", ":last-of-type"),
    ("only-of-type", ":only-of-type"),
    ("empty", ":empty"),
    ("disabled", ":disabled"),
    ("enabled", ":enabled"),
    ("checked", ":checked"),
    ("indeterminate", ":indeterminate"),
    ("default", ":default"),
    ("required", ":required"),
    ("valid", ":valid"),
    ("invalid", ":invalid"),
    ("in-range", ":in-range"),
    ("out-of-range", ":out-of-range"),
    ("placeholder-shown", ":placeholder-shown"),
    ("autofill", ":autofill"),
    ("read-only", ":read-only"),
    ("optional", ":optional"),
    ("open", "[open]")]

def pseudoElements : List (Text × Text) :=
  [("before", "::before"),
    ("after", "::after"),
    ("first-letter", "::first-letter"),
    ("first-line", "::first-line"),
    ("marker", "::marker"),
    ("selection", "::selection"),
    ("file", "::file-selector-button"),
    ("backdrop", "::backdrop"),
    ("placeholder", "::placeholder")]

/-- Words for media features, with the query that each stands for. -/
def mediaFeatures : List (Text × Text) :=
  [("dark", "(prefers-color-scheme: dark)"),
    ("motion-safe", "(prefers-reduced-motion: no-preference)"),
    ("motion-reduce", "(prefers-reduced-motion: reduce)"),
    ("contrast-more", "(prefers-contrast: more)"),
    ("contrast-less", "(prefers-contrast: less)"),
    ("print", "print"),
    ("portrait", "(orientation: portrait)"),
    ("landscape", "(orientation: landscape)")]

def named : List (Text × Kind × Text) :=
  pseudoClasses.map (fun (word, suffix) => (word, .pseudoClass, suffix)) ++
    pseudoElements.map (fun (word, suffix) => (word, .pseudoElement, suffix)) ++
    mediaFeatures.map (fun (word, query) => (word, .mediaFeature, query))

/-- The states that may follow `aria-` without brackets. -/
def ariaStates : List Text :=
  ["busy", "checked", "disabled", "expanded", "hidden", "pressed", "readonly", "required",
    "selected"]

end AtomicCss.Variant
