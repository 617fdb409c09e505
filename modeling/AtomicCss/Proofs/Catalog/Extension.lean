import AtomicCss.Proofs.Catalog.Colors

/-!
# Themes extend the catalog

The colours of a theme matter to a class only if the class names one of them. All other colours of
the standard palette stay what they are, even in a family to which the theme adds shades. The
plugins for colours are asked last, and no other plugin looks at the palette; so where a colour is
named like the class of another plugin, that plugin goes on serving the class.
-/

namespace AtomicCss

namespace Color

/-- The kinds of classes that are named by a colour. -/
def targets : List Target :=
  [fill, stroke, text, background, border]

variable {palette other : Palette}

/-- Of a palette, only the colour counts that the last hyphen of a token separates. -/
theorem value?_congr {token : Text}
    (same : ∀ family shade, token = family ++ '-' :: shade → '-' ∉ shade →
      palette.color? family shade = other.color? family shade) :
    value? palette token = value? other token := by
  simp only [value?]
  split
  · rfl
  · congr 1
    cases cut : token.cutLast? '-' with
    | none => rfl
    | some parts =>
        rcases Text.cutLast?_eq_some_iff.mp cut with ⟨splits, noHyphen⟩
        exact same parts.1 parts.2 splits noHyphen

theorem Target.declarations?_congr {target : Target} {name : Text}
    (same : ∀ family shade, name = target.lead ++ family ++ '-' :: shade → '-' ∉ shade →
      palette.color? family shade = other.color? family shade) :
    target.declarations? palette name = target.declarations? other name := by
  rw [declarations?, declarations?]
  congr 1
  cases afterLead : name.after? target.lead with
  | none => rfl
  | some token =>
      apply value?_congr
      intro family shade splits
      apply same
      rw [Text.after?_eq_some_iff.mp afterLead, splits, List.append_assoc]

end Color

namespace Plugin

/-- The plugins for colours. -/
def colored : List Plugin :=
  [.fill, .stroke, .textColor, .backgroundColor, .borderColor]

variable {palette other : Palette} {name : Text}

theorem declarations?_of_uncolored {plugin : Plugin} (uncolored : plugin ∉ colored) (sign : Sign) :
    plugin.declarations? palette sign name = plugin.declarations? other sign name := by
  cases plugin with
  | fill | stroke | textColor | backgroundColor | borderColor =>
      exact absurd (by decide) uncolored
  | _ => cases sign <;> rfl

theorem declarations?_negative_congr (plugin : Plugin) :
    plugin.declarations? palette .negative name = plugin.declarations? other .negative name := by
  cases plugin <;> rfl

theorem declarations?_positive_congr
    (same : ∀ target ∈ Color.targets,
      target.declarations? palette name = target.declarations? other name) (plugin : Plugin) :
    plugin.declarations? palette .positive name = plugin.declarations? other .positive name := by
  simp only [Color.targets, List.forall_mem_cons] at same
  rcases same with ⟨fill, stroke, text, background, border, -⟩
  cases plugin with
  | fill => simp only [declarations?, paint?, fill]
  | stroke => simp only [declarations?, paint?, stroke]
  | textColor => exact text
  | backgroundColor => exact background
  | borderColor => exact border
  | _ => rfl

theorem all_eq_append_colored : all = all.filter (· ∉ colored) ++ colored := by decide

end Plugin

namespace Settings

/-- The settings with a theme that has no colours of its own. -/
def withoutColors (settings : Settings) : Settings :=
  { settings with theme := { settings.theme with colors := [] } }

/-- Whether a class consists of the lead of a kind of colours and a colour that the theme names. -/
def NamesColor (settings : Settings) (className : Text) : Prop :=
  ∃ target ∈ Color.targets, ∃ family shade value,
    className = target.lead ++ family ++ '-' :: shade ∧ '-' ∉ shade ∧
      settings.theme.colors.color? family shade = some value

/-- Whether a plugin that is switched on declares something for a class. -/
def IsServedBy (settings : Settings) (plugin : Plugin) (className : Text) : Prop :=
  plugin ∈ settings.enabled ∧ plugin.serves settings.palette className = true

variable {settings : Settings} {className : Text}

theorem namesColor_iff :
    settings.NamesColor className ↔ ∃ target ∈ Color.targets,
      (((className.after? target.lead).bind (·.cutLast? '-')).bind fun (family, shade) =>
        settings.theme.colors.color? family shade).isSome = true := by
  simp only [NamesColor, Option.isSome_iff_exists, Option.bind_eq_some_iff, Prod.exists,
    Text.after?_eq_some_iff, Text.cutLast?_eq_some_iff]
  constructor
  · rintro ⟨target, member, family, shade, value, splits, noHyphen, named⟩
    refine ⟨target, member, value, family, shade, ⟨family ++ '-' :: shade, ?_, rfl, noHyphen⟩, named⟩
    rw [splits, List.append_assoc]
  · rintro ⟨target, member, value, family, shade, ⟨token, afterLead, splits, noHyphen⟩, named⟩
    refine ⟨target, member, family, shade, value, ?_, noHyphen, named⟩
    rw [afterLead, splits, List.append_assoc]

instance : Decidable (settings.NamesColor className) :=
  decidable_of_iff' _ namesColor_iff

instance (plugin : Plugin) : Decidable (settings.IsServedBy plugin className) :=
  inferInstanceAs (Decidable (_ ∧ _))

theorem color?_withoutColors {family shade : Text}
    (unnamed : settings.theme.colors.color? family shade = none) :
    settings.palette.color? family shade = settings.withoutColors.palette.color? family shade := by
  rw [palette, palette, Palette.color?_extend, Palette.color?_extend, unnamed]
  rfl

theorem declarations?_eq_of_not_namesColor (unnamed : ¬settings.NamesColor className)
    (plugin : Plugin) :
    plugin.declarations? settings.palette (Sign.cut className).1 (Sign.cut className).2 =
      plugin.declarations? settings.withoutColors.palette (Sign.cut className).1
        (Sign.cut className).2 := by
  by_cases signed : className.head? = some '-'
  · -- No colour has a negative, so that a class may even name one behind its hyphen.
    rcases List.head?_eq_some_iff.mp signed with ⟨name, rfl⟩
    exact plugin.declarations?_negative_congr
  · rw [Sign.cut_of_unsigned signed]
    apply Plugin.declarations?_positive_congr
    intro target member
    apply Color.Target.declarations?_congr
    intro family shade splits noHyphen
    apply color?_withoutColors
    rw [Option.eq_none_iff_forall_ne_some]
    intro value named
    exact unnamed ⟨target, member, family, shade, value, splits, noHyphen, named⟩

/-- A class of another plugin is found before the plugins for colours are asked. -/
theorem findSome?_enabled_of_uncolored {palette other : Palette} {sign : Sign} {name : Text}
    {plugin : Plugin} (uncolored : plugin ∉ Plugin.colored) (switchedOn : plugin ∈ settings.enabled)
    (declares : (plugin.declarations? palette sign name).isSome = true) :
    settings.enabled.findSome? (Plugin.declarations? palette sign name) =
      settings.enabled.findSome? (Plugin.declarations? other sign name) := by
  rw [enabled, Plugin.all_eq_append_colored, List.filter_append]
  refine findSome?_append_congr ?_ ?_ declares
  · intro other isAsked
    apply Plugin.declarations?_of_uncolored
    simpa using (List.mem_filter.mp (List.mem_filter.mp isAsked).1).2
  · refine List.mem_filter.mpr ⟨List.mem_filter.mpr ⟨plugin.mem_all, by simpa using uncolored⟩, ?_⟩
    exact mem_enabled_iff.mp switchedOn

/-- The colours of a theme change nothing about a class that names none of them, nor about a class
that a plugin serves without them that is none of the plugins for colours. -/
theorem utility?_withoutColors
    (unaffected : ¬settings.NamesColor className ∨
      ∃ plugin ∉ Plugin.colored, settings.withoutColors.IsServedBy plugin className) :
    settings.utility? className = settings.withoutColors.utility? className := by
  have sameEnabled : settings.withoutColors.enabled = settings.enabled := rfl
  simp only [utility?, declarations?, sameEnabled]
  congr 2
  rcases unaffected with unnamed | ⟨plugin, uncolored, switchedOn, serves⟩
  · congr 1
    funext plugin
    exact declarations?_eq_of_not_namesColor unnamed plugin
  · exact (findSome?_enabled_of_uncolored uncolored switchedOn serves).symm

/-- A colour that is named like a length between borders: the length stays what it is, and so does
a standard colour. -/
theorem utility?_withoutColors_spacingFamily :
    NamesColor ⟨⟨"", [], [("spacing", [("4", "red")])]⟩, []⟩ "border-spacing-4" ∧
    IsServedBy (withoutColors ⟨⟨"", [], [("spacing", [("4", "red")])]⟩, []⟩) .borderSpacing
      "border-spacing-4" ∧
    utility? ⟨⟨"", [], [("spacing", [("4", "red")])]⟩, []⟩ "border-spacing-4" =
      some (.ofClass "border-spacing-4" [⟨"--tw-border-spacing-x", "1rem"⟩,
        ⟨"--tw-border-spacing-y", "1rem"⟩,
        ⟨"border-spacing", "var(--tw-border-spacing-x) var(--tw-border-spacing-y)"⟩]) ∧
    ¬NamesColor ⟨⟨"", [], [("spacing", [("4", "red")])]⟩, []⟩ "fill-blue-500" ∧
    utility? ⟨⟨"", [], [("spacing", [("4", "red")])]⟩, []⟩ "fill-blue-500" =
      some (.ofClass "fill-blue-500" [⟨"fill", "#3b82f6"⟩]) := by
  have served : IsServedBy (withoutColors ⟨⟨"", [], [("spacing", [("4", "red")])]⟩, []⟩)
      .borderSpacing "border-spacing-4" := by
    decide +kernel
  have unnamed : ¬NamesColor ⟨⟨"", [], [("spacing", [("4", "red")])]⟩, []⟩ "fill-blue-500" := by
    decide +kernel
  refine ⟨by decide +kernel, served, ?_, unnamed, ?_⟩
  · rw [utility?_withoutColors (.inr ⟨.borderSpacing, by decide, served⟩)]
    decide +kernel
  · rw [utility?_withoutColors (.inl unnamed)]
    decide +kernel

end Settings

end AtomicCss
