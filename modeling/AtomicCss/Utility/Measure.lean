import AtomicCss.Literal
import AtomicCss.Rule
import AtomicCss.Utility.Sign
import AtomicCss.Utility.Spacing

/-!
# Utilities with a measure

Families of classes that end in a length, an angle, a number or a text: from a scale of their own,
from the spacing scale, or in brackets.
-/

namespace AtomicCss.Measure

def single (property value : Text) : List Declaration :=
  [⟨property, value⟩]

/-- The percentage that a text states: digits, after an optional plus sign. -/
def percentage? : Text → Option Nat
  | '+' :: digits => Text.decimal? digits
  | digits => Text.decimal? digits

/-- An opacity: a multiple of five per cent, or any value in brackets. -/
def opacity? (name : Text) : Option (List Declaration) :=
  (name.after? "opacity-").bind fun token =>
    match Bracket.filled? token with
    | some value => some (single "opacity" value)
    | none =>
        (percentage? token).bind fun percent =>
          if percent ≤ 100 && percent % 5 = 0 then
            some (single "opacity" (Text.ofScaled percent 2))
          else none

/-- The value of the `content` property; a string is written in double quotes. -/
def contentValue? (token : Text) : Option Text :=
  if token = "none" then some token
  else
    (Bracket.filled? token).map fun value =>
      if value.head? = some '\'' || value.head? = some '"' then Literal.ofValue value else value

def content? (name : Text) : Option (List Declaration) :=
  ((name.after? "content-").bind contentValue?).map fun value =>
    [⟨"--tw-content", value⟩, ⟨"content", "var(--tw-content)"⟩]

/-- The distance between the cells of a table, along one axis or both. -/
def borderSpacing? (name : Text) : Option (List Declaration) :=
  let shorthand : Declaration :=
    ⟨"border-spacing", "var(--tw-border-spacing-x) var(--tw-border-spacing-y)"⟩
  (name.after? "border-spacing-").bind fun token =>
    match token.after? "x-", token.after? "y-" with
    | some horizontal, _ =>
        (Spacing.length? horizontal).map fun length =>
          [⟨"--tw-border-spacing-x", length⟩, shorthand]
    | none, some vertical =>
        (Spacing.length? vertical).map fun length =>
          [⟨"--tw-border-spacing-y", length⟩, shorthand]
    | none, none =>
        (Spacing.length? token).map fun length =>
          [⟨"--tw-border-spacing-x", length⟩, ⟨"--tw-border-spacing-y", length⟩, shorthand]

/-- One of the listed numbers with a unit, or any value in brackets. -/
def listed? (numbers : List Text) (unit token : Text) : Option Text :=
  if numbers.contains token then some (token ++ unit) else Bracket.filled? token

def outlineOffset? (sign : Sign) (name : Text) : Option (List Declaration) :=
  (name.after? "outline-offset-").bind fun token =>
    (listed? ["0", "1", "2", "4", "8"] "px" token).map fun value =>
      single "outline-offset" (sign.apply value)

def transform : Text :=
  "translate(var(--tw-translate-x), var(--tw-translate-y)) rotate(var(--tw-rotate)) " ++
    "skewX(var(--tw-skew-x)) skewY(var(--tw-skew-y)) " ++
    "scaleX(var(--tw-scale-x)) scaleY(var(--tw-scale-y))"

def rotate? (sign : Sign) (name : Text) : Option (List Declaration) :=
  (name.after? "rotate-").bind fun token =>
    (listed? ["0", "1", "2", "3", "6", "12", "45", "90", "180"] "deg" token).map fun value =>
      [⟨"--tw-rotate", sign.apply value⟩, ⟨"transform", transform⟩]

def backdropFilter : Text :=
  "var(--tw-backdrop-blur) var(--tw-backdrop-brightness) var(--tw-backdrop-contrast) " ++
    "var(--tw-backdrop-grayscale) var(--tw-backdrop-hue-rotate) var(--tw-backdrop-invert) " ++
    "var(--tw-backdrop-opacity) var(--tw-backdrop-saturate) var(--tw-backdrop-sepia)"

def blurRadii : Dictionary Text :=
  [("none", "0"), ("sm", "4px"), ("md", "12px"), ("lg", "16px"), ("xl", "24px"), ("2xl", "40px"),
    ("3xl", "64px")]

/-- The radius that a class name asks for; the bare name has one of its own. -/
def blurRadius? (name : Text) : Option Text :=
  if name = "backdrop-blur" then some "8px"
  else
    (name.after? "backdrop-blur-").bind fun token =>
      (blurRadii.lookup token).or (Bracket.filled? token)

def backdropBlur? (name : Text) : Option (List Declaration) :=
  (blurRadius? name).map fun radius =>
    [⟨"--tw-backdrop-blur", "blur(" ++ radius ++ ")"⟩,
      ⟨"-webkit-backdrop-filter", backdropFilter⟩,
      ⟨"backdrop-filter", backdropFilter⟩]

/-- The sides of a box that a letter stands for. -/
def sides : Dictionary (List Text) :=
  [("", [""]), ("x", ["-left", "-right"]), ("y", ["-top", "-bottom"]), ("t", ["-top"]),
    ("r", ["-right"]), ("b", ["-bottom"]), ("l", ["-left"])]

/-- The properties that a class for the sides of a box sets, and the token for their value. The
class starts with `letter`, then names the sides, and a hyphen precedes the token. -/
def box? (letter : Char) (property name : Text) : Option (List Text × Text) :=
  match name.cutFirst? '-' with
  | some (first :: side, token) =>
      if first = letter then
        (sides.lookup side).map fun suffixes => (suffixes.map (property ++ ·), token)
      else none
  | _ => none

def padding? (name : Text) : Option (List Declaration) :=
  (box? 'p' "padding" name).bind fun (properties, token) =>
    (Spacing.length? token).map fun length => properties.map (⟨·, length⟩)

/-- The value of a margin, which may be left to the layout but not negated then. -/
def marginValue? (sign : Sign) (token : Text) : Option Text :=
  if token = "auto" && sign = .positive then some token
  else (Spacing.length? token).map sign.apply

def margin? (sign : Sign) (name : Text) : Option (List Declaration) :=
  (box? 'm' "margin" name).bind fun (properties, token) =>
    (marginValue? sign token).map fun length => properties.map (⟨·, length⟩)

end AtomicCss.Measure
