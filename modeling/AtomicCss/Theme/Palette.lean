import AtomicCss.Dictionary

/-!
# Palettes

A palette has families of colours, and a family has shades. A theme adds to the standard palette:
it may add families, add shades to a family and change shades, but it removes nothing.
-/

namespace AtomicCss

abbrev Palette := Dictionary (Dictionary Text)

namespace Palette

def color? (palette : Palette) (family shade : Text) : Option Text :=
  (palette.lookup family).bind (·.lookup shade)

/-- The palette with the shades of `additions` added to it, or put in place of its own. -/
def extend (palette additions : Palette) : Palette :=
  Dictionary.overlay palette <| additions.map fun (family, shades) =>
    (family, Dictionary.overlay ((palette.lookup family).getD []) shades)

/-- The names of the shades, from the lightest to the darkest. -/
def shades : List Text :=
  ["50", "100", "200", "300", "400", "500", "600", "700", "800", "900"]

/-- The families of the standard palette, each with its colours from the lightest to the
darkest. -/
def families : Dictionary (List Text) :=
  [("gray",
      ["#f9fafb", "#f3f4f6", "#e5e7eb", "#d1d5db", "#9ca3af", "#6b7280", "#4b5563", "#374151",
        "#1f2937", "#111827"]),
    ("red",
      ["#fef2f2", "#fee2e2", "#fecaca", "#fca5a5", "#f87171", "#ef4444", "#dc2626", "#b91c1c",
        "#991b1b", "#7f1d1d"]),
    ("yellow",
      ["#fefce8", "#fef9c3", "#fef08a", "#fde047", "#facc15", "#eab308", "#ca8a04", "#a16207",
        "#854d0e", "#713f12"]),
    ("green",
      ["#f0fdf4", "#dcfce7", "#bbf7d0", "#86efac", "#4ade80", "#22c55e", "#16a34a", "#15803d",
        "#166534", "#14532d"]),
    ("blue",
      ["#eff6ff", "#dbeafe", "#bfdbfe", "#93c5fd", "#60a5fa", "#3b82f6", "#2563eb", "#1d4ed8",
        "#1e40af", "#1e3a8a"]),
    ("indigo",
      ["#eef2ff", "#e0e7ff", "#c7d2fe", "#a5b4fc", "#818cf8", "#6366f1", "#4f46e5", "#4338ca",
        "#3730a3", "#312e81"])]

/-- The palette of every theme that adds nothing. -/
def standard : Palette :=
  families.map fun (family, colors) => (family, shades.zip colors)

end Palette

end AtomicCss
