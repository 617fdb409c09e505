import AtomicCss.Utility.Color
import AtomicCss.Utility.Keyword
import AtomicCss.Utility.Measure

/-!
# Plugins

The catalog is made of plugins, each serving one family of classes. Only three of them know
negative values.
-/

namespace AtomicCss

inductive Plugin
  | display
  | visibility
  | wordBreak
  | textAlign
  | fontSize
  | fontWeight
  | opacity
  | content
  | placeContent
  | placeItems
  | alignContent
  | gridAutoFlow
  | mixBlendMode
  | borderSpacing
  | outlineOffset
  | rotate
  | backdropBlur
  | padding
  | margin
  | fill
  | stroke
  | textColor
  | backgroundColor
  | borderColor
  deriving DecidableEq, Repr

namespace Plugin

/-- All plugins, in the order in which they are asked. -/
def all : List Plugin :=
  [.display, .visibility, .wordBreak, .textAlign, .fontSize, .fontWeight, .opacity, .content,
    .placeContent, .placeItems, .alignContent, .gridAutoFlow, .mixBlendMode, .borderSpacing,
    .outlineOffset, .rotate, .backdropBlur, .padding, .margin, .fill, .stroke, .textColor,
    .backgroundColor, .borderColor]

/-- The name under which a plugin is switched off. -/
def name : Plugin → Text
  | .display => "display"
  | .visibility => "visibility"
  | .wordBreak => "wordBreak"
  | .textAlign => "textAlign"
  | .fontSize => "fontSize"
  | .fontWeight => "fontWeight"
  | .opacity => "opacity"
  | .content => "content"
  | .placeContent => "placeContent"
  | .placeItems => "placeItems"
  | .alignContent => "alignContent"
  | .gridAutoFlow => "gridAutoFlow"
  | .mixBlendMode => "mixBlendMode"
  | .borderSpacing => "borderSpacing"
  | .outlineOffset => "outlineOffset"
  | .rotate => "rotate"
  | .backdropBlur => "backdropBlur"
  | .padding => "padding"
  | .margin => "margin"
  | .fill => "fill"
  | .stroke => "stroke"
  | .textColor => "textColor"
  | .backgroundColor => "backgroundColor"
  | .borderColor => "borderColor"

/-- A paint of a shape: none at all, or a colour. -/
def paint? (target : Color.Target) (palette : Palette) (name : Text) : Option (List Declaration) :=
  if name = target.lead ++ "none" then some [⟨target.property, "none"⟩]
  else target.declarations? palette name

/-- What a plugin declares for a class, whose name comes without the hyphen of a negative value. -/
def declarations? (palette : Palette) (sign : Sign) (name : Text) (plugin : Plugin) :
    Option (List Declaration) :=
  match plugin, sign with
  | .outlineOffset, sign => Measure.outlineOffset? sign name
  | .rotate, sign => Measure.rotate? sign name
  | .margin, sign => Measure.margin? sign name
  | _, .negative => none
  | .display, .positive => Keywords.display.declarations? name
  | .visibility, .positive => Keywords.visibility.declarations? name
  | .wordBreak, .positive => Keywords.wordBreak.declarations? name
  | .textAlign, .positive => Keywords.textAlign.declarations? name
  | .fontSize, .positive => Keywords.fontSize.declarations? name
  | .fontWeight, .positive => Keywords.fontWeight.declarations? name
  | .opacity, .positive => Measure.opacity? name
  | .content, .positive => Measure.content? name
  | .placeContent, .positive => Keywords.placeContent.declarations? name
  | .placeItems, .positive => Keywords.placeItems.declarations? name
  | .alignContent, .positive => Keywords.alignContent.declarations? name
  | .gridAutoFlow, .positive => Keywords.gridAutoFlow.declarations? name
  | .mixBlendMode, .positive => Keywords.mixBlendMode.declarations? name
  | .borderSpacing, .positive => Measure.borderSpacing? name
  | .backdropBlur, .positive => Measure.backdropBlur? name
  | .padding, .positive => Measure.padding? name
  | .fill, .positive => paint? Color.fill palette name
  | .stroke, .positive => paint? Color.stroke palette name
  | .textColor, .positive => Color.text.declarations? palette name
  | .backgroundColor, .positive => Color.background.declarations? palette name
  | .borderColor, .positive => Color.border.declarations? palette name

end Plugin

end AtomicCss
