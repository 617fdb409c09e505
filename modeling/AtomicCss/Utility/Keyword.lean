import AtomicCss.Dictionary
import AtomicCss.Rule

/-!
# Keyword utilities

Families of classes that are listed one by one: after a common start, each word has its own
declarations.
-/

namespace AtomicCss

/-- A family of classes that are listed by the words after their common start. -/
structure Keywords where
  lead : Text
  meanings : Dictionary (List Declaration)
  deriving DecidableEq, Repr

namespace Keywords

def declarations? (family : Keywords) (name : Text) : Option (List Declaration) :=
  (name.after? family.lead).bind (family.meanings.lookup ·)

/-- A family that sets one property, with the value for each word. -/
def setting (lead property : Text) (values : Dictionary Text) : Keywords :=
  ⟨lead, values.map fun (word, value) => (word, [⟨property, value⟩])⟩

def naming (lead property : Text) (words : List Text) : Keywords :=
  setting lead property (words.map fun word => (word, word))

def display : Keywords :=
  setting "" "display"
    [("block", "block"), ("inline-block", "inline-block"), ("inline", "inline"), ("flex", "flex"),
      ("inline-flex", "inline-flex"), ("table", "table"), ("table-row", "table-row"),
      ("table-cell", "table-cell"), ("flow-root", "flow-root"), ("grid", "grid"),
      ("inline-grid", "inline-grid"), ("contents", "contents"), ("list-item", "list-item"),
      ("hidden", "none")]

def visibility : Keywords :=
  setting "" "visibility"
    [("visible", "visible"), ("invisible", "hidden"), ("collapse", "collapse")]

/-- Where lines may break. -/
def wordBreak : Keywords :=
  ⟨"break-",
    [("normal", [⟨"overflow-wrap", "normal"⟩, ⟨"word-break", "normal"⟩]),
      ("words", [⟨"overflow-wrap", "break-word"⟩]),
      ("all", [⟨"word-break", "break-all"⟩]),
      ("keep", [⟨"word-break", "keep-all"⟩])]⟩

def textAlign : Keywords :=
  naming "text-" "text-align" ["left", "center", "right", "justify", "start", "end"]

def fontSize : Keywords :=
  let sizes : List (Text × Text × Text) :=
    [("xs", "0.75rem", "1rem"), ("sm", "0.875rem", "1.25rem"), ("base", "1rem", "1.5rem"),
      ("lg", "1.125rem", "1.75rem"), ("xl", "1.25rem", "1.75rem"), ("2xl", "1.5rem", "2rem"),
      ("3xl", "1.875rem", "2.25rem"), ("4xl", "2.25rem", "2.5rem"), ("5xl", "3rem", "1"),
      ("6xl", "3.75rem", "1"), ("7xl", "4.5rem", "1"), ("8xl", "6rem", "1"), ("9xl", "8rem", "1")]
  ⟨"text-", sizes.map fun (word, size, height) =>
    (word, [⟨"font-size", size⟩, ⟨"line-height", height⟩])⟩

def fontWeight : Keywords :=
  setting "font-" "font-weight"
    [("thin", "100"), ("extralight", "200"), ("light", "300"), ("normal", "400"),
      ("medium", "500"), ("semibold", "600"), ("bold", "700"), ("extrabold", "800"),
      ("black", "900")]

def placeContent : Keywords :=
  setting "place-content-" "place-content"
    [("center", "center"), ("start", "start"), ("end", "end"), ("between", "space-between"),
      ("around", "space-around"), ("evenly", "space-evenly"), ("baseline", "baseline"),
      ("stretch", "stretch")]

def placeItems : Keywords :=
  naming "place-items-" "place-items" ["start", "end", "center", "baseline", "stretch"]

def alignContent : Keywords :=
  setting "content-" "align-content"
    [("center", "center"), ("start", "flex-start"), ("end", "flex-end"),
      ("between", "space-between"), ("around", "space-around"), ("evenly", "space-evenly"),
      ("baseline", "baseline")]

/-- In which direction a grid fills up. -/
def gridAutoFlow : Keywords :=
  setting "grid-flow-" "grid-auto-flow"
    [("row", "row"), ("col", "column"), ("dense", "dense"), ("row-dense", "row dense"),
      ("col-dense", "column dense")]

def mixBlendMode : Keywords :=
  naming "mix-blend-" "mix-blend-mode"
    ["normal", "multiply", "screen", "overlay", "darken", "lighten", "color-dodge", "color-burn",
      "hard-light", "soft-light", "difference", "exclusion", "hue", "saturation", "color",
      "luminosity", "plus-lighter"]

end Keywords

end AtomicCss
