import AtomicCss.Proofs.Bracket.Reading
import AtomicCss.Proofs.Catalog.Signs
import AtomicCss.Proofs.Catalog.Toggles

/-!
# The colours of a theme

Every colour that a theme names can be used for texts and for backgrounds, whatever its family is
called, as long as the family does not open a bracket and the shade has no hyphen: the last hyphen
of a class then separates the two, no keyword and no other plugin reads the class, and the colour of
the theme hides a standard one of the same name.

A value of three or six hexadecimal digits is declared by its channels, so that its opacity can be
changed; every other value is declared as it stands.
-/

namespace AtomicCss

/-- A colour of the additions hides the colour with the same name, and only this one. -/
theorem Palette.color?_extend (palette additions : Palette) (family shade : Text) :
    (palette.extend additions).color? family shade =
      (additions.color? family shade).or (palette.color? family shade) := by
  rw [color?, extend, Dictionary.lookup_overlay,
    Dictionary.lookup_map_of_keys fun family =>
      Dictionary.overlay ((palette.lookup family).getD []), color?, color?]
  cases additions.lookup family with
  | none => rfl
  | some shades =>
      simp only [Option.map_some, Option.some_or, Option.bind_some, Dictionary.lookup_overlay]
      cases palette.lookup family <;> rfl

namespace Color

/-- The bytes of red, green and blue that a hexadecimal colour writes. With one digit for each of
them, the digit counts twice. -/
inductive Writes : Text → Nat → Nat → Nat → Prop
  | six {red red' green green' blue blue' : Char}
      (hexDigits : ∀ digit ∈ [red, red', green, green', blue, blue'], digit.isHexDigit = true) :
      Writes ['#', red, red', green, green', blue, blue'] (Text.inBase 16 [red, red'])
        (Text.inBase 16 [green, green']) (Text.inBase 16 [blue, blue'])
  | three {red green blue : Char}
      (hexDigits : ∀ digit ∈ [red, green, blue], digit.isHexDigit = true) :
      Writes ['#', red, green, blue] (Text.inBase 16 [red, red]) (Text.inBase 16 [green, green])
        (Text.inBase 16 [blue, blue])

/-- What a class declares that sets a property to a colour and keeps its opacity in a variable. -/
inductive Renders (property opacity : Text) : Text → List Declaration → Prop
  | channels {value : Text} {red green blue : Nat} (writes : Writes value red green blue) :
      Renders property opacity value
        [⟨opacity, "1"⟩,
          ⟨property, "rgb(" ++ Text.ofNat red ++ " " ++ Text.ofNat green ++ " " ++
            Text.ofNat blue ++ " / var(" ++ opacity ++ "))"⟩]
  | whole {value : Text} (otherwise : ∀ red green blue, ¬Writes value red green blue) :
      Renders property opacity value [⟨property, value⟩]

theorem channel_eq (high low : Char) : channel high low = Text.ofNat (Text.inBase 16 [high, low]) := by
  simp [channel, Text.inBase]

theorem channels?_of_writes {value : Text} {red green blue : Nat}
    (writes : Writes value red green blue) :
    channels? value = some
      (Text.ofNat red ++ ' ' :: Text.ofNat green ++ ' ' :: Text.ofNat blue) := by
  cases writes with
  | six hexDigits =>
      rw [channels?, if_pos (List.all_eq_true.mpr hexDigits)]
      simp [channel_eq, List.intercalate]
  | three hexDigits =>
      rw [channels?, if_pos (List.all_eq_true.mpr hexDigits)]
      simp [channel_eq, List.intercalate]

theorem exists_writes_of_channels? {value : Text} (isHex : (channels? value).isSome = true) :
    ∃ red green blue, Writes value red green blue := by
  unfold channels? at isHex
  split at isHex
  · split at isHex
    · rename_i hexDigits
      exact ⟨_, _, _, .three (List.all_eq_true.mp hexDigits)⟩
    · cases isHex
  · split at isHex
    · rename_i hexDigits
      exact ⟨_, _, _, .six (List.all_eq_true.mp hexDigits)⟩
    · cases isHex
  · cases isHex

/-- A colour that is named by its family and its shade is looked up in the palette. -/
theorem value?_named {family shade : Text} (noBracket : family.head? ≠ some '[')
    (noHyphen : '-' ∉ shade) (palette : Palette) :
    value? palette (family ++ '-' :: shade) = palette.color? family shade := by
  have unfilled : Bracket.filled? (family ++ '-' :: shade) = none := by
    apply Bracket.filled?_eq_none
    rintro ⟨rest, starts⟩
    cases family with
    | nil => simp at starts
    | cons first family => simp [(List.cons.inj starts).1.symm] at noBracket
  have noKeyword : keywords.lookup (family ++ '-' :: shade) = none := by
    have noHyphens : ∀ entry ∈ keywords, '-' ∉ entry.1 := by decide
    rw [Option.eq_none_iff_forall_ne_some]
    intro value found
    exact noHyphens _ (Dictionary.mem_of_lookup_eq_some found) (by simp)
  rw [value?, unfilled, noKeyword, Text.cutLast?_append_mark family noHyphen]
  rfl

theorem Target.exists_declarations?_named {target : Target} {opacity family shade value : Text}
    {palette : Palette} (hasOpacity : target.opacity = some opacity)
    (noBracket : family.head? ≠ some '[') (noHyphen : '-' ∉ shade)
    (named : palette.color? family shade = some value) :
    ∃ declarations, target.declarations? palette (target.lead ++ family ++ '-' :: shade) =
        some declarations ∧ Renders target.property opacity value declarations := by
  have afterLead : Text.after? (target.lead ++ family ++ '-' :: shade) target.lead =
      some (family ++ '-' :: shade) := by
    rw [Text.after?_eq_some_iff, List.append_assoc]
  rw [declarations?, afterLead, Option.bind_some, value?_named noBracket noHyphen, named,
    hasOpacity, Option.map_some]
  cases isHex : channels? value with
  | none =>
      refine ⟨_, rfl, .whole ?_⟩
      intro red green blue writes
      rw [channels?_of_writes writes] at isHex
      cases isHex
  | some channels =>
      rcases exists_writes_of_channels? (by rw [isHex]; rfl) with ⟨red, green, blue, writes⟩
      rw [channels?_of_writes writes, Option.some.injEq] at isHex
      refine ⟨_, rfl, ?_⟩
      rw [← isHex]
      have renders : Renders target.property opacity value _ := .channels writes
      simpa using renders

end Color

namespace Plugin

/-- A class that sets the colour of a text or a background is known by no other plugin. -/
theorem eq_of_colored {palette : Palette} {name : Text} {plugin other : Plugin}
    (colored : plugin ∈ [textColor, backgroundColor])
    (declares : (plugin.declarations? palette .positive name).isSome = true)
    (otherDeclares : (other.declarations? palette .positive name).isSome = true) :
    other = plugin := by
  rcases eq_or_areRivals_of_declares declares otherDeclares with same | areRivals | areRivals
  · exact same.symm
  · have notFirst : ∀ pair ∈ rivals, pair.1 ∉ [textColor, backgroundColor] := by decide
    exact absurd colored (notFirst _ areRivals)
  · have noBorder : plugin ≠ .borderColor := by
      rintro rfl
      simp at colored
    rw [not_both_of_rivals (fun isBorder => absurd isBorder noBorder) areRivals otherDeclares]
      at declares
    cases declares

end Plugin

namespace Settings

variable {settings : Settings}

theorem mem_enabled_iff {plugin : Plugin} :
    plugin ∈ settings.enabled ↔ settings.isEnabled plugin.name = true := by
  rw [enabled, List.mem_filter]
  exact and_iff_right plugin.mem_all

theorem color?_palette {family shade value : Text}
    (configured : settings.theme.colors.color? family shade = some value) :
    settings.palette.color? family shade = some value := by
  rw [palette, Palette.color?_extend, configured, Option.some_or]

theorem utility?_of_colored (plugin : Plugin) {name : Text} {declarations : List Declaration}
    (colored : plugin ∈ [Plugin.textColor, .backgroundColor])
    (switchedOn : settings.isEnabled plugin.name = true) (notEmpty : name ≠ [])
    (unsigned : name.head? ≠ some '-')
    (declares : plugin.declarations? settings.palette .positive name = some declarations) :
    settings.utility? name = some (.ofClass name declarations) := by
  have found : settings.enabled.findSome?
      (Plugin.declarations? settings.palette .positive name) = some declarations := by
    apply findSome?_eq_of_unique (mem_enabled_iff.mpr switchedOn) declares
    intro other otherDeclares
    exact Plugin.eq_of_colored colored (by rw [declares]; rfl) otherDeclares
  rw [utility?, declarations?_of_unsigned settings notEmpty unsigned, found, Option.map_some]

/-- Every colour that a theme names is the colour of a class for backgrounds and of a class for
texts, and is rendered by its channels if it is hexadecimal. -/
theorem utility?_themeColor (settings : Settings) {family shade value : Text}
    (noBracket : family.head? ≠ some '[') (noHyphen : '-' ∉ shade)
    (configured : settings.theme.colors.color? family shade = some value) :
    (settings.isEnabled "backgroundColor" = true →
      ∃ declarations, settings.utility? ("bg-" ++ family ++ '-' :: shade) =
          some (.ofClass ("bg-" ++ family ++ '-' :: shade) declarations) ∧
        Color.Renders "background-color" "--tw-bg-opacity" value declarations) ∧
    (settings.isEnabled "textColor" = true →
      ∃ declarations, settings.utility? ("text-" ++ family ++ '-' :: shade) =
          some (.ofClass ("text-" ++ family ++ '-' :: shade) declarations) ∧
        Color.Renders "color" "--tw-text-opacity" value declarations) := by
  have named := color?_palette configured
  constructor
  · intro switchedOn
    rcases Color.background.exists_declarations?_named rfl noBracket noHyphen named with
      ⟨declarations, declares, renders⟩
    refine ⟨declarations, ?_, renders⟩
    exact utility?_of_colored .backgroundColor (by simp) switchedOn (by simp) (by simp) declares
  · intro switchedOn
    rcases Color.text.exists_declarations?_named rfl noBracket noHyphen named with
      ⟨declarations, declares, renders⟩
    refine ⟨declarations, ?_, renders⟩
    exact utility?_of_colored .textColor (by simp) switchedOn (by simp) (by simp) declares

/-- A colour with three digits whose family has a hyphen, with paddings switched off. -/
theorem utility?_themeColor_hyphenFamily :
    ("my-brand" : Text).head? ≠ some '[' ∧ '-' ∉ ("500" : Text) ∧
    Palette.color? [("my-brand", [("500", "#0fA")])] "my-brand" "500" = some "#0fA" ∧
    utility? ⟨⟨"", [], [("my-brand", [("500", "#0fA")])]⟩, [("padding", false)]⟩ "bg-my-brand-500" =
      some ⟨".bg-my-brand-500",
        [⟨"--tw-bg-opacity", "1"⟩,
          ⟨"background-color", "rgb(0 255 170 / var(--tw-bg-opacity))"⟩]⟩ := by
  have noBracket : ("my-brand" : Text).head? ≠ some '[' := by decide
  have noHyphen : '-' ∉ ("500" : Text) := by decide
  have configured :
      Palette.color? [("my-brand", [("500", "#0fA")])] "my-brand" "500" = some "#0fA" := by
    decide +kernel
  refine ⟨noBracket, noHyphen, configured, ?_⟩
  rcases (utility?_themeColor
    ⟨⟨"", [], [("my-brand", [("500", "#0fA")])]⟩, [("padding", false)]⟩
    noBracket noHyphen configured).1 (by decide +kernel) with ⟨declarations, found, renders⟩
  cases renders with
  | channels writes =>
      cases writes
      exact found.trans (by decide +kernel)
  | whole otherwise =>
      exact absurd (Color.Writes.three (List.all_eq_true.mp rfl)) (otherwise _ _ _)

end Settings

end AtomicCss
