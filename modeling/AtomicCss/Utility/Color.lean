import AtomicCss.Bracket.Content
import AtomicCss.Rule
import AtomicCss.Text.Digits
import AtomicCss.Theme.Palette

/-!
# Colours

A colour is named by a keyword, by a family and a shade of the palette, or by its value in
brackets. Where a class has an opacity of its own, a hexadecimal colour is split into channels so
that the opacity can be changed later.
-/

namespace AtomicCss.Color

/-- The colours that every palette has. -/
def keywords : Dictionary Text :=
  [("black", "#000"), ("white", "#fff"), ("transparent", "transparent"),
    ("current", "currentColor"), ("inherit", "inherit")]

def functions : List Text :=
  ["rgb(", "rgba(", "hsl(", "hsla(", "oklch(", "color(", "var("]

def words : List Text :=
  ["currentcolor", "transparent", "inherit"]

/-- Whether a value in brackets counts as a colour; upper and lower case do not differ. -/
def isColor (value : Text) : Bool :=
  let lower := value.map Char.toLower
  value.head? = some '#' || functions.any (·.isPrefixOf lower) || words.contains lower

def value? (palette : Palette) (token : Text) : Option Text :=
  match Bracket.filled? token with
  | some value => if isColor value then some value else none
  | none =>
      (keywords.lookup token).or <|
        (token.cutLast? '-').bind fun (family, shade) => palette.color? family shade

def channel (high low : Char) : Text :=
  Text.ofNat (16 * hexValue high + hexValue low)

/-- The channels of a colour of three or six hexadecimal digits, separated by spaces. -/
def channels? : Text → Option Text
  | ['#', red, green, blue] =>
      if [red, green, blue].all Char.isHexDigit then
        some ([' '].intercalate [channel red red, channel green green, channel blue blue])
      else none
  | ['#', red, red', green, green', blue, blue'] =>
      if [red, red', green, green', blue, blue'].all Char.isHexDigit then
        some ([' '].intercalate [channel red red', channel green green', channel blue blue'])
      else none
  | _ => none

/-- A kind of classes that set one property to a colour; `opacity` is the variable that holds its
opacity, if it has one. -/
structure Target where
  lead : Text
  property : Text
  opacity : Option Text
  deriving DecidableEq, Repr

def Target.declarations? (target : Target) (palette : Palette) (name : Text) :
    Option (List Declaration) :=
  ((name.after? target.lead).bind (value? palette)).map fun value =>
    match target.opacity, channels? value with
    | some opacity, some channels =>
        [⟨opacity, "1"⟩,
          ⟨target.property, "rgb(" ++ channels ++ " / var(" ++ opacity ++ "))"⟩]
    | _, _ => [⟨target.property, value⟩]

def fill : Target := ⟨"fill-", "fill", none⟩

def stroke : Target := ⟨"stroke-", "stroke", none⟩

def text : Target := ⟨"text-", "color", some "--tw-text-opacity"⟩

def background : Target := ⟨"bg-", "background-color", some "--tw-bg-opacity"⟩

def border : Target := ⟨"border-", "border-color", some "--tw-border-opacity"⟩

end AtomicCss.Color
