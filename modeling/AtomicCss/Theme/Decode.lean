import AtomicCss.Theme.Settings
import AtomicCss.Toml.Document

/-!
# Settings from a configuration file

The file may hold a table `theme` and a table of plugins, and either may be absent. A theme may
also be written as an array of its name, its screens and its colours, in this order, of which the
later ones may be left out. Entries with other names are ignored, and values of a wrong type make
the whole file invalid.
-/

namespace AtomicCss.Settings

open Toml

/-- The name of the only entry of a moment that is read as a table. -/
def momentEntry : Text := "$__toml_private_datetime"

/-- The entries of a value that can be read as a table. -/
def entries? : Value → Option Entries
  | .inline entries | .table _ entries => some entries
  | .moment moment => some [(momentEntry, .string moment.print)]
  | _ => none

def text? : Value → Option Text
  | .string text => some text
  | _ => none

def boolean? : Value → Option Bool
  | .boolean truth => some truth
  | _ => none

def dictionary? {Item : Type} (item? : Value → Option Item) (value : Value) :
    Option (Dictionary Item) := do
  let entries ← entries? value
  entries.mapM fun (name, value) => (item? value).map (name, ·)

/-- Reads a value that may be absent. -/
def optional {Item : Type} (item? : Value → Option Item) (absent : Item) :
    Option Value → Option Item
  | none => some absent
  | some value => item? value

def themeOf? (name screens colors : Option Value) : Option Theme := do
  let name ← optional text? Theme.standard.name name
  let screens ← optional (dictionary? text?) [] screens
  let colors ← optional (dictionary? (dictionary? text?)) [] colors
  some ⟨name, screens, colors⟩

def theme? (value : Value) : Option Theme :=
  match value with
  | .array items => themeOf? items[0]? items[1]? items[2]?
  | .tables latest earlier =>
      let items := (latest :: earlier).reverse.map (Value.table .stated)
      themeOf? items[0]? items[1]? items[2]?
  | _ => do
      let entries ← entries? value
      themeOf? (entries.get? "name") (entries.get? "screens") (entries.get? "colors")

/-- The entry for the plugins, which has two names of which only one may be used. -/
def pluginEntry? (entries : Entries) : Option (Option Value) :=
  match entries.get? "core_plugins", entries.get? "corePlugins" with
  | some _, some _ => none
  | plugins, alternative => some (plugins.or alternative)

def ofEntries? (entries : Entries) : Option Settings := do
  let theme ← optional theme? Theme.standard (entries.get? "theme")
  let plugins ← optional (dictionary? boolean?) [] (← pluginEntry? entries)
  some ⟨theme, plugins⟩

def parse? (text : Text) : Option Settings := do
  let entries ← Document.read text
  ofEntries? entries

/-- Reads settings that are written in TOML. A text that states none is refused without a reason. -/
def read : Reader := fun text =>
  match parse? text with
  | some settings => .ok settings
  | none => .error none

end AtomicCss.Settings
