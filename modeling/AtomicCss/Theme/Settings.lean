import AtomicCss.Theme.Palette

/-!
# Settings

What a project may configure: a theme, and which plugins of the catalog are switched off. Screens
that a theme names replace the standard ones; colours that it names extend the standard palette.
-/

namespace AtomicCss

/-- The name of a theme, its breakpoints with their minimum widths, and its own colours. -/
structure Theme where
  name : Text
  screens : Dictionary Text
  colors : Palette
  deriving DecidableEq, Repr

def Theme.standardScreens : Dictionary Text :=
  [("sm", "640px"), ("md", "768px"), ("lg", "1024px"), ("xl", "1280px"), ("2xl", "1536px")]

def Theme.standard : Theme := ⟨"default", [], []⟩

/-- The configuration of a project. A plugin that is not listed is switched on. -/
structure Settings where
  theme : Theme
  plugins : Dictionary Bool
  deriving DecidableEq, Repr

namespace Settings

/-- A way to read settings from a text. A reader that refuses a text may say why. -/
abbrev Reader := Text → Except (Option Text) Settings

def standard : Settings := ⟨.standard, []⟩

def screens (settings : Settings) : Dictionary Text :=
  if settings.theme.screens.isEmpty then Theme.standardScreens else settings.theme.screens

def palette (settings : Settings) : Palette :=
  Palette.standard.extend settings.theme.colors

def isEnabled (settings : Settings) (plugin : Text) : Bool :=
  (settings.plugins.lookup plugin).getD true

end Settings

end AtomicCss
