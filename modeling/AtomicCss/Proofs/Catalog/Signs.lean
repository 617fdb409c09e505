import AtomicCss.Proofs.Catalog.Shapes

/-!
# Negative classes

A hyphen in front of a class asks for the negatives of the values that the class declares. Three
plugins answer it, and they know a negative class if and only if they know the class itself, except
for margins that are left to the layout. Since no other plugin declares anything for their classes,
the catalog as a whole answers it likewise, whichever plugins are switched on.
-/

namespace AtomicCss

/-- A declaration with its value negated. The transformation of a rotation stays as it is, since it
reads the angle from a variable. -/
def Declaration.negate (declaration : Declaration) : Declaration :=
  if declaration.property = "transform" then declaration
  else { declaration with value := Sign.negate declaration.value }

theorem Declaration.negate_of_ne {property : Text} (noTransform : property ≠ "transform")
    (value : Text) : negate ⟨property, value⟩ = ⟨property, Sign.negate value⟩ :=
  if_neg noTransform

namespace Measure

/-- The classes of margins that are left to the layout. -/
def autoMargins : List Text :=
  sides.map fun (side, _) => 'm' :: side ++ "-auto"

/-- Whatever value is read, the negative sign negates what is declared with it. -/
theorem bind_map_negative (declare : Sign → Text → List Declaration)
    (negates : ∀ value, declare .negative value = (declare .positive value).map Declaration.negate)
    (token? : Option Text) (value? : Text → Option Text) :
    (token?.bind fun token => (value? token).map (declare .negative)) =
      (token?.bind fun token => (value? token).map (declare .positive)).map
        (List.map Declaration.negate) := by
  rw [Option.map_bind]
  congr 1
  funext token
  rw [Function.comp, Option.map_map]
  congr 1
  funext value
  exact negates value

theorem outlineOffset?_negative (name : Text) :
    outlineOffset? .negative name =
      (outlineOffset? .positive name).map (List.map Declaration.negate) :=
  bind_map_negative (fun sign value => single "outline-offset" (sign.apply value))
    (fun _ => rfl) _ _

theorem rotate?_negative (name : Text) :
    rotate? .negative name = (rotate? .positive name).map (List.map Declaration.negate) :=
  bind_map_negative (fun sign value => [⟨"--tw-rotate", sign.apply value⟩, ⟨"transform", transform⟩])
    (fun _ => rfl) _ _

theorem marginValue?_negative (token : Text) :
    marginValue? .negative token = (Spacing.length? token).map Sign.negate := by
  rw [marginValue?, if_neg (by simp)]
  rfl

theorem marginValue?_positive {token : Text} (notAuto : token ≠ "auto") :
    marginValue? .positive token = Spacing.length? token := by
  rw [marginValue?, if_neg (by simpa using notAuto)]
  cases Spacing.length? token <;> rfl

/-- A margin that is left to the layout has no negative, and other plugins do not know it. -/
theorem negative_of_mem_autoMargins {name : Text} (isAuto : name ∈ autoMargins) :
    margin? .negative name = none ∧ outlineOffset? .negative name = none ∧
      rotate? .negative name = none := by
  have unknown : ∀ name ∈ autoMargins, margin? .negative name = none ∧
      outlineOffset? .negative name = none ∧ rotate? .negative name = none := by
    decide +kernel
  exact unknown name isAuto

/-- The sides of a margin are no transformations, so all their values are negated. -/
theorem map_negate_of_box? {name token : Text} {properties : List Text}
    (found : box? 'm' "margin" name = some (properties, token)) (length : Text) :
    (properties.map (Declaration.mk · length)).map Declaration.negate =
      properties.map (Declaration.mk · (Sign.negate length)) := by
  rcases exists_side_of_box? found with ⟨entry, member, -, rfl⟩
  have noTransform : ∀ entry ∈ sides, ∀ suffix ∈ entry.2,
      ("margin" : Text) ++ suffix ≠ "transform" := by decide
  rw [List.map_map]
  apply List.map_congr_left
  intro property propertyMember
  rcases List.mem_map.mp propertyMember with ⟨suffix, suffixMember, rfl⟩
  exact Declaration.negate_of_ne (noTransform entry member suffix suffixMember) length

theorem margin?_negative {name : Text} (notAuto : name ∉ autoMargins) :
    margin? .negative name = (margin? .positive name).map (List.map Declaration.negate) := by
  simp only [margin?]
  cases found : box? 'm' "margin" name with
  | none => rfl
  | some box =>
      rcases box with ⟨properties, token⟩
      have notAutoToken : token ≠ "auto" := by
        rintro rfl
        rcases exists_side_of_box? found with ⟨entry, member, rfl, -⟩
        exact notAuto (List.mem_map_of_mem member)
      simp only [Option.bind_some, marginValue?_negative, marginValue?_positive notAutoToken,
        Option.map_map]
      congr 1
      funext length
      exact (map_negate_of_box? found length).symm

end Measure

namespace Plugin

/-- A negative class is known by the plugins that know negative values, unless the class leaves a
margin to the layout. -/
theorem declarations?_negative (palette : Palette) (name : Text) (plugin : Plugin) :
    plugin.declarations? palette .negative name =
      if plugin ∈ signed ∧ name ∉ Measure.autoMargins then
        (plugin.declarations? palette .positive name).map (List.map Declaration.negate)
      else none := by
  by_cases isSigned : plugin ∈ signed
  · by_cases isAuto : name ∈ Measure.autoMargins
    · rcases Measure.negative_of_mem_autoMargins isAuto with ⟨noMargin, noOffset, noRotation⟩
      rw [if_neg fun both => both.2 isAuto]
      simp only [signed, List.mem_cons, List.not_mem_nil, or_false] at isSigned
      rcases isSigned with rfl | rfl | rfl
      · exact noMargin
      · exact noOffset
      · exact noRotation
    · rw [if_pos ⟨isSigned, isAuto⟩]
      simp only [signed, List.mem_cons, List.not_mem_nil, or_false] at isSigned
      rcases isSigned with rfl | rfl | rfl
      · exact Measure.margin?_negative isAuto
      · exact Measure.outlineOffset?_negative name
      · exact Measure.rotate?_negative name
  · rw [if_neg fun both => isSigned both.1]
    rw [← Option.not_isSome_iff_eq_none]
    exact mt mem_signed_of_negative isSigned

end Plugin

theorem Sign.cut_of_unsigned {name : Text} (unsigned : name.head? ≠ some '-') :
    cut name = (.positive, name) := by
  rw [cut]
  rintro rest rfl
  exact unsigned rfl

namespace Settings

variable (settings : Settings) {name : Text}

theorem declarations?_of_unsigned (notEmpty : name ≠ []) (unsigned : name.head? ≠ some '-') :
    settings.declarations? name =
      settings.enabled.findSome? (Plugin.declarations? settings.palette .positive name) := by
  simp only [declarations?, Sign.cut_of_unsigned unsigned, List.isEmpty_eq_false_iff.mpr notEmpty,
    Bool.false_eq_true, if_false]

theorem declarations?_hyphen (notEmpty : name ≠ []) :
    settings.declarations? ('-' :: name) =
      settings.enabled.findSome? (Plugin.declarations? settings.palette .negative name) := by
  simp only [declarations?, Sign.cut, List.isEmpty_eq_false_iff.mpr notEmpty, Bool.false_eq_true,
    if_false]

/-- A negative class declares the negatives of what the class declares, if one of the plugins knows
it that know negative values. -/
theorem declarations?_negative (notEmpty : name ≠ []) (unsigned : name.head? ≠ some '-') :
    settings.declarations? ('-' :: name) =
      if (∃ plugin ∈ Plugin.signed, plugin.serves settings.palette name = true) ∧
          name ∉ Measure.autoMargins then
        (settings.declarations? name).map (List.map Declaration.negate)
      else none := by
  rw [declarations?_hyphen settings notEmpty, declarations?_of_unsigned settings notEmpty unsigned]
  split
  · rename_i known
    rcases known with ⟨⟨server, isSigned, serves⟩, notAuto⟩
    rw [Plugin.serves, Sign.cut_of_unsigned unsigned] at serves
    rw [List.map_findSome?]
    congr 1
    funext plugin
    rw [Plugin.declarations?_negative, Function.comp]
    split
    · rfl
    · rename_i unknown
      have silent : plugin.declarations? settings.palette .positive name = none := by
        rw [← Option.not_isSome_iff_eq_none]
        intro declares
        have same := Plugin.eq_of_mem_signed isSigned serves declares
        exact unknown ⟨same ▸ isSigned, notAuto⟩
      rw [silent]
      rfl
  · rename_i unknown
    rw [List.findSome?_eq_none_iff]
    intro plugin _
    rw [Plugin.declarations?_negative]
    split
    · rename_i both
      rw [Option.map_eq_none_iff, ← Option.not_isSome_iff_eq_none]
      intro declares
      refine unknown ⟨⟨plugin, both.1, ?_⟩, both.2⟩
      rw [Plugin.serves, Sign.cut_of_unsigned unsigned]
      exact declares
    · rfl

/-- A class has a negative if and only if the class is known itself, by a plugin that knows negative
values, and does not leave a margin to the layout. The negative then declares the same properties
with the negated values. -/
theorem utility?_negative (notEmpty : name ≠ []) (unsigned : name.head? ≠ some '-') :
    ((settings.utility? ('-' :: name)).isSome = true ↔
      (settings.utility? name).isSome = true ∧
        (∃ plugin ∈ [Plugin.margin, .outlineOffset, .rotate],
          plugin.serves settings.palette name = true) ∧
        name ∉ Measure.autoMargins) ∧
    ∀ negative, settings.utility? ('-' :: name) = some negative →
      ∃ positive, settings.utility? name = some positive ∧
        negative.template = '.' :: Identifier.encode ('-' :: name) ∧
        negative.declarations = positive.declarations.map Declaration.negate := by
  simp only [utility?, Option.isSome_map]
  rw [declarations?_negative settings notEmpty unsigned]
  split
  · rename_i known
    constructor
    · rw [Option.isSome_map]
      exact ⟨fun isSome => ⟨isSome, known⟩, fun all => all.1⟩
    · intro negative found
      simp only [Option.map_map, Option.map_eq_some_iff, Function.comp] at found
      rcases found with ⟨declarations, positiveEq, rfl⟩
      exact ⟨_, by rw [positiveEq]; rfl, rfl, rfl⟩
  · rename_i unknown
    constructor
    · exact ⟨fun isSome => absurd isSome (by simp), fun all => absurd all.2 unknown⟩
    · intro negative found
      cases found

/-- Half a turn to the left, with paddings switched off. -/
theorem utility?_negative_halfTurn :
    ("rotate-[0.5turn]" : Text) ≠ [] ∧ ("rotate-[0.5turn]" : Text).head? ≠ some '-' ∧
    ∃ negative, utility? ⟨.standard, [("padding", false)]⟩ "-rotate-[0.5turn]" = some negative ∧
      negative.declarations =
        [⟨"--tw-rotate", "-0.5turn"⟩, ⟨"transform", Measure.transform⟩] := by
  have notEmpty : ("rotate-[0.5turn]" : Text) ≠ [] := by decide
  have unsigned : ("rotate-[0.5turn]" : Text).head? ≠ some '-' := by decide
  have positiveEq : utility? ⟨.standard, [("padding", false)]⟩ "rotate-[0.5turn]" =
      some (.ofClass "rotate-[0.5turn]"
        [⟨"--tw-rotate", "0.5turn"⟩, ⟨"transform", Measure.transform⟩]) := by
    decide +kernel
  rcases utility?_negative ⟨.standard, [("padding", false)]⟩ notEmpty unsigned with
    ⟨known, negates⟩
  have isSome := known.mpr ⟨by rw [positiveEq]; rfl, ⟨.rotate, by decide, by decide +kernel⟩,
    by decide +kernel⟩
  rcases Option.isSome_iff_exists.mp isSome with ⟨negative, found⟩
  rcases negates negative found with ⟨positive, positiveFound, -, negated⟩
  rw [positiveEq, Option.some.injEq] at positiveFound
  refine ⟨notEmpty, unsigned, negative, found, ?_⟩
  rw [negated, ← positiveFound]
  decide +kernel

end Settings

end AtomicCss
