import AtomicCss.Proofs.Catalog.Shapes
import AtomicCss.Proofs.FirstReading

/-!
# Switching plugins off

Where classes of rivals start alike, what follows tells them apart: no word that a plugin lists is a
colour or a value in brackets, since these have a hyphen, a bracket or a name of their own. Only the
name of a colour could be read as a length between borders, if its family were named like one. In
all other palettes no class is known by two plugins. The order in which they are asked therefore
does not matter, and switching one off takes away the classes that it knows and nothing else.
-/

namespace AtomicCss

/-- Whether no family of colours is named like a length between borders. -/
def Palette.AvoidsSpacing (palette : Palette) : Prop :=
  ∀ entry ∈ palette, ¬("spacing" : Text) <+: entry.1

instance (palette : Palette) : Decidable palette.AvoidsSpacing :=
  inferInstanceAs (Decidable (∀ entry ∈ palette, _))

namespace Color

/-- A word without a hyphen or brackets that is no keyword names no colour of any palette. -/
theorem value?_eq_none {token : Text} (unfilled : Bracket.filled? token = none)
    (noKeyword : keywords.lookup token = none) (noHyphen : '-' ∉ token) (palette : Palette) :
    value? palette token = none := by
  rw [value?, unfilled, noKeyword, Text.cutLast?_eq_none_iff.mpr noHyphen]
  rfl

/-- The family that the last hyphen cuts off starts with everything before an earlier hyphen. -/
theorem prefix_of_cutLast? {lead rest family shade : Text} (noHyphen : '-' ∉ lead)
    (cut : (lead ++ '-' :: rest).cutLast? '-' = some (family, shade)) : lead <+: family := by
  rcases List.append_eq_append_iff.mp (Text.cutLast?_eq_some cut) with
    ⟨longer, familyEq, -⟩ | ⟨shorter, leadEq, restEq⟩
  · exact ⟨longer, familyEq.symm⟩
  · cases shorter with
    | nil => exact ⟨[], by simpa using leadEq⟩
    | cons first shorter =>
        rw [List.cons_append, List.cons.injEq] at restEq
        apply absurd _ noHyphen
        rw [leadEq, ← restEq.1]
        simp

/-- A colour can be named like a length between borders only if its family is. -/
theorem value?_spacing {palette : Palette} (avoids : palette.AvoidsSpacing) (rest : Text) :
    value? palette ("spacing-" ++ rest) = none := by
  have unfilled : Bracket.filled? ("spacing-" ++ rest) = none := rfl
  have noKeyword : keywords.lookup ("spacing-" ++ rest) = none := rfl
  rw [value?, unfilled, noKeyword]
  simp only [Option.none_or, Option.bind_eq_none_iff]
  rintro ⟨family, shade⟩ cut
  have starts : ("spacing" : Text) <+: family := prefix_of_cutLast? (by decide) cut
  simp only [Palette.color?, Option.bind_eq_none_iff]
  intro shades found
  exact absurd starts (avoids _ (Dictionary.mem_of_lookup_eq_some found))

end Color

namespace Plugin

variable {palette : Palette} {sign : Sign} {name : Text} {first second : Plugin}

/-- A word that is listed after the lead of a colour is no colour. -/
theorem text_declarations?_eq_none {family : Keywords} (lead : family.lead = Color.text.lead)
    (noColors : ∀ entry ∈ family.meanings, Bracket.filled? entry.1 = none ∧
      Color.keywords.lookup entry.1 = none ∧ '-' ∉ entry.1)
    (declares : (family.declarations? name).isSome = true) :
    Color.text.declarations? palette name = none := by
  rcases Keywords.exists_word_of_declares declares with ⟨entry, member, nameEq⟩
  rcases noColors entry member with ⟨unfilled, noKeyword, noHyphen⟩
  rw [← Option.not_isSome_iff_eq_none]
  intro colored
  rcases Color.text.exists_token_of_declares colored with ⟨token, tokenEq, isColor⟩
  rw [nameEq, lead, List.append_cancel_left_eq] at tokenEq
  rw [← tokenEq, Color.value?_eq_none unfilled noKeyword noHyphen] at isColor
  cases isColor

theorem alignContent_declarations?_eq_none (declares : (Measure.content? name).isSome = true) :
    Keywords.alignContent.declarations? name = none := by
  have noContents : ∀ entry ∈ Keywords.alignContent.meanings,
      Measure.contentValue? entry.1 = none := by decide
  rw [← Option.not_isSome_iff_eq_none]
  intro aligned
  rcases Measure.exists_token_of_content? declares with ⟨token, nameEq, isContent⟩
  rcases Keywords.exists_word_of_declares aligned with ⟨entry, member, entryEq⟩
  have same : token = entry.1 := by
    rw [nameEq] at entryEq
    exact List.append_cancel_left entryEq
  rw [same, noContents entry member] at isContent
  cases isContent

theorem border_declarations?_eq_none (avoids : palette.AvoidsSpacing)
    (declares : (Measure.borderSpacing? name).isSome = true) :
    Color.border.declarations? palette name = none := by
  rcases Text.prefix_of_bind_after? declares with ⟨rest, rfl⟩
  rw [← Option.not_isSome_iff_eq_none]
  intro colored
  rcases Color.border.exists_token_of_declares colored with ⟨token, tokenEq, isColor⟩
  have splits : Color.border.lead ++ ("spacing-" ++ rest) = Color.border.lead ++ token := tokenEq
  rw [← List.append_cancel_left splits, Color.value?_spacing avoids] at isColor
  cases isColor

/-- Rivals never know the same class, if no family of colours is named like a length; only borders
ask for this. -/
theorem not_both_of_rivals (avoids : second = .borderColor → palette.AvoidsSpacing)
    (areRivals : (first, second) ∈ rivals)
    (firstDeclares : (first.declarations? palette .positive name).isSome = true) :
    second.declarations? palette .positive name = none := by
  simp only [rivals, List.mem_cons, Prod.mk.injEq, List.not_mem_nil, or_false] at areRivals
  rcases areRivals with ⟨rfl, rfl⟩ | ⟨rfl, rfl⟩ | ⟨rfl, rfl⟩ | ⟨rfl, rfl⟩
  · exact text_declarations?_eq_none rfl (by decide) firstDeclares
  · exact text_declarations?_eq_none rfl (by decide) firstDeclares
  · exact alignContent_declarations?_eq_none firstDeclares
  · exact border_declarations?_eq_none (avoids rfl) firstDeclares

/-- No class is known by two plugins. -/
theorem eq_of_declares (avoids : palette.AvoidsSpacing)
    (firstDeclares : (first.declarations? palette sign name).isSome = true)
    (secondDeclares : (second.declarations? palette sign name).isSome = true) :
    first = second := by
  cases sign with
  | negative =>
      exact eq_of_mem_signed (mem_signed_of_negative firstDeclares) firstDeclares secondDeclares
  | positive =>
      rcases eq_or_areRivals_of_declares firstDeclares secondDeclares with
        same | areRivals | areRivals
      · exact same
      · rw [not_both_of_rivals (fun _ => avoids) areRivals firstDeclares] at secondDeclares
        cases secondDeclares
      · rw [not_both_of_rivals (fun _ => avoids) areRivals secondDeclares] at firstDeclares
        cases firstDeclares

/-- With such a family the two plugins would know the same class. -/
example : (Plugin.borderSpacing.declarations? [("spacing", [("4", "red")])] .positive
      "border-spacing-4").isSome = true ∧
    (Plugin.borderColor.declarations? [("spacing", [("4", "red")])] .positive
      "border-spacing-4").isSome = true := by
  decide +kernel

theorem name_inj (same : first.name = second.name) : first = second := by
  have names : ∀ first ∈ all, ∀ second ∈ all, first.name = second.name → first = second := by
    decide +kernel
  exact names first (mem_all first) second (mem_all second) same

end Plugin

namespace Settings

/-- The settings with a plugin switched off. -/
def switchOff (settings : Settings) (plugin : Plugin) : Settings :=
  { settings with plugins := Dictionary.overlay settings.plugins [(plugin.name, false)] }

/-- The utility that a class names if the plugins are asked in this order. -/
def utilityIn? (settings : Settings) (order : List Plugin) (className : Text) : Option Utility :=
  let (sign, name) := Sign.cut className
  if name.isEmpty then none
  else
    ((order.filter fun plugin => settings.isEnabled plugin.name).findSome?
      (Plugin.declarations? settings.palette sign name)).map (Utility.ofClass className)

theorem utility?_eq_utilityIn? (settings : Settings) (className : Text) :
    settings.utility? className = settings.utilityIn? Plugin.all className := by
  simp only [utility?, declarations?, utilityIn?, enabled]
  split <;> rfl

variable {settings : Settings}

/-- The families of a palette are the standard ones and those of the theme. -/
theorem mem_colors_of_mem_palette {family : Text} {shades : Dictionary Text}
    (member : (family, shades) ∈ settings.palette) :
    (∃ entry ∈ settings.theme.colors, entry.1 = family) ∨ (family, shades) ∈ Palette.standard := by
  rcases List.mem_append.mp member with added | kept
  · rcases List.mem_map.mp added with ⟨entry, entryMember, entryEq⟩
    cases entryEq
    exact .inl ⟨entry, entryMember, rfl⟩
  · exact .inr ((List.mem_filter.mp kept).1)

theorem palette_avoidsSpacing (avoids : settings.theme.colors.AvoidsSpacing) :
    settings.palette.AvoidsSpacing := by
  have standard : Palette.standard.AvoidsSpacing := by decide +kernel
  rintro ⟨family, shades⟩ member
  rcases mem_colors_of_mem_palette member with ⟨entry, entryMember, rfl⟩ | isStandard
  · exact avoids entry entryMember
  · exact standard _ isStandard

theorem isEnabled_switchOff (settings : Settings) (plugin other : Plugin) :
    (settings.switchOff plugin).isEnabled other.name =
      (decide (other ≠ plugin) && settings.isEnabled other.name) := by
  rw [isEnabled, switchOff, Dictionary.lookup_overlay]
  by_cases same : other = plugin
  · subst same
    simp
  · have otherName : (other.name == plugin.name) = false := by
      rw [beq_eq_false_iff_ne]
      exact fun sameName => same (Plugin.name_inj sameName)
    simp [List.lookup_cons, otherName, same, isEnabled]

theorem enabled_switchOff (settings : Settings) (plugin : Plugin) :
    (settings.switchOff plugin).enabled = settings.enabled.filter (· ≠ plugin) := by
  rw [enabled, enabled, List.filter_filter]
  apply List.filter_congr
  intro other _
  exact isEnabled_switchOff settings plugin other

/-- Switching a plugin off takes its classes away and nothing else. -/
theorem utility?_switchOff (avoids : settings.theme.colors.AvoidsSpacing)
    (plugin : Plugin) (className : Text) :
    (settings.switchOff plugin).utility? className =
      if plugin.serves settings.palette className = true then none
      else settings.utility? className := by
  have samePalette : (settings.switchOff plugin).palette = settings.palette := rfl
  simp only [utility?, declarations?, samePalette, enabled_switchOff]
  split
  · simp
  · split
    · rename_i serves
      rw [Option.map_eq_none_iff, List.findSome?_eq_none_iff]
      intro other member
      have different : other ≠ plugin := by simpa using (List.mem_filter.mp member).2
      rw [← Option.not_isSome_iff_eq_none]
      intro declares
      exact different (Plugin.eq_of_declares (palette_avoidsSpacing avoids) declares serves)
    · rename_i silent
      rw [findSome?_filter_of_silent]
      intro other isPlugin
      simp only [ne_eq, decide_not, Bool.not_eq_false', decide_eq_true_eq] at isPlugin
      rw [isPlugin, ← Option.not_isSome_iff_eq_none]
      exact silent

theorem utilityIn?_of_perm (avoids : settings.theme.colors.AvoidsSpacing)
    {order : List Plugin} (isOrder : order.Perm Plugin.all) (className : Text) :
    settings.utilityIn? order className = settings.utility? className := by
  rw [utility?_eq_utilityIn?]
  simp only [utilityIn?]
  rw [findSome?_eq_of_perm (fun first second => Plugin.eq_of_declares (palette_avoidsSpacing avoids))
    (isOrder.filter _)]

/-- As long as no family of colours is named like a length between borders, at most one plugin
declares something for a class. So the plugins may be asked in any order, and switching one off
makes the classes unknown that it serves and leaves all others as they are. -/
theorem toggles_exact (settings : Settings) (avoids : settings.theme.colors.AvoidsSpacing) :
    (∀ (sign : Sign) (name : Text) (first second : Plugin),
      (first.declarations? settings.palette sign name).isSome = true →
      (second.declarations? settings.palette sign name).isSome = true → first = second) ∧
    (∀ order : List Plugin, order.Perm Plugin.all → ∀ className,
      settings.utilityIn? order className = settings.utility? className) ∧
    ∀ (plugin : Plugin) (className : Text),
      (plugin.serves settings.palette className = true →
        (settings.switchOff plugin).utility? className = none) ∧
      (plugin.serves settings.palette className = false →
        (settings.switchOff plugin).utility? className = settings.utility? className) := by
  refine ⟨fun sign name first second => Plugin.eq_of_declares (palette_avoidsSpacing avoids),
    fun order isOrder className => utilityIn?_of_perm avoids isOrder className,
    fun plugin className => ?_⟩
  rw [utility?_switchOff avoids]
  exact ⟨fun serves => if_pos serves, fun silent => if_neg (by simp [silent])⟩

/-- A colour of a family that is nearly named like a length, with the plugins asked in the reverse
order, and with either of the two rivals switched off. -/
theorem toggles_exact_spaceFamily :
    Palette.AvoidsSpacing [("space", [("4", "red")])] ∧
    utilityIn? ⟨⟨"", [], [("space", [("4", "red")])]⟩, []⟩ Plugin.all.reverse "border-space-4" =
      some ⟨".border-space-4", [⟨"border-color", "red"⟩]⟩ ∧
    (switchOff ⟨⟨"", [], [("space", [("4", "red")])]⟩, []⟩ .borderColor).utility?
      "border-space-4" = none ∧
    (switchOff ⟨⟨"", [], [("space", [("4", "red")])]⟩, []⟩ .borderSpacing).utility?
      "border-space-4" = some ⟨".border-space-4", [⟨"border-color", "red"⟩]⟩ := by
  have avoids : Palette.AvoidsSpacing [("space", [("4", "red")])] := by decide
  have declared : utility? ⟨⟨"", [], [("space", [("4", "red")])]⟩, []⟩ "border-space-4" =
      some ⟨".border-space-4", [⟨"border-color", "red"⟩]⟩ := by
    decide +kernel
  rcases toggles_exact ⟨⟨"", [], [("space", [("4", "red")])]⟩, []⟩ avoids with
    ⟨-, anyOrder, toggles⟩
  refine ⟨avoids, ?_, ?_, ?_⟩
  · rw [anyOrder Plugin.all.reverse (List.reverse_perm Plugin.all), declared]
  · exact (toggles .borderColor "border-space-4").1 (by decide +kernel)
  · rw [(toggles .borderSpacing "border-space-4").2 (by decide +kernel), declared]

end Settings

end AtomicCss
