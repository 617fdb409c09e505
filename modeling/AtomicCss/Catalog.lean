import AtomicCss.Theme.Settings
import AtomicCss.Utility
import AtomicCss.Utility.Plugin

/-!
# The catalog

The utilities that a project has under its settings: those of the plugins that are switched on,
with the colours of its palette. The first plugin that knows a class declares it.
-/

namespace AtomicCss

/-- The sign that a class name asks for, and the name without it. -/
def Sign.cut : Text → Sign × Text
  | '-' :: name => (.negative, name)
  | name => (.positive, name)

namespace Settings

/-- The plugins that are switched on, in the order in which they are asked. -/
def enabled (settings : Settings) : List Plugin :=
  Plugin.all.filter fun plugin => settings.isEnabled plugin.name

def declarations? (settings : Settings) (className : Text) : Option (List Declaration) :=
  let (sign, name) := Sign.cut className
  if name.isEmpty then none
  else settings.enabled.findSome? (Plugin.declarations? settings.palette sign name)

def utility? (settings : Settings) (className : Text) : Option Utility :=
  (settings.declarations? className).map (Utility.ofClass className)

end Settings

end AtomicCss
