import AtomicCss.Catalog
import AtomicCss.Proofs.Dictionary
import AtomicCss.Proofs.Text.Affixes

/-!
# Utilities declare something

A plugin that knows a class declares at least one property for it. The values of a class may come
from the palette, a scale or the author; how many declarations there are does not depend on them,
and it is never none. So a utility of the catalog always has something to print.
-/

namespace AtomicCss

section Lookups

variable {Found : Type} {found : Option Found}

/-- A lookup that yields declarations step by step yields some if its last step does. -/
theorem bind_ne_some_nil {declare : Found → Option (List Declaration)}
    (declares : ∀ value, declare value ≠ some []) : found.bind declare ≠ some [] := by
  cases found with
  | none => simp
  | some value => exact declares value

theorem map_ne_some_nil {declare : Found → List Declaration}
    (declares : ∀ value, declare value ≠ []) : found.map declare ≠ some [] := by
  cases found with
  | none => simp
  | some value => simpa using declares value

end Lookups

namespace Keywords

/-- Whether every word of a family has declarations. -/
def IsDeclaring (family : Keywords) : Prop :=
  ∀ entry ∈ family.meanings, entry.2 ≠ []

theorem isDeclaring_setting (lead property : Text) (values : Dictionary Text) :
    (setting lead property values).IsDeclaring := by
  intro entry member
  rcases List.mem_map.mp member with ⟨value, -, rfl⟩
  exact List.cons_ne_nil _ _

theorem isDeclaring_wordBreak : wordBreak.IsDeclaring := by
  unfold IsDeclaring
  decide

theorem isDeclaring_fontSize : fontSize.IsDeclaring := by
  intro entry member
  rcases List.mem_map.mp member with ⟨size, -, rfl⟩
  exact List.cons_ne_nil _ _

theorem declarations?_ne_some_nil {family : Keywords} (declaring : family.IsDeclaring)
    (name : Text) : family.declarations? name ≠ some [] := by
  apply bind_ne_some_nil
  intro word found
  exact declaring (word, []) (Dictionary.mem_of_lookup_eq_some found) rfl

end Keywords

namespace Measure

theorem opacity?_ne_some_nil (name : Text) : opacity? name ≠ some [] := by
  apply bind_ne_some_nil
  intro token
  split
  · simp [single]
  · apply bind_ne_some_nil
    intro percent
    split <;> simp [single]

theorem content?_ne_some_nil (name : Text) : content? name ≠ some [] :=
  map_ne_some_nil fun _ => List.cons_ne_nil _ _

theorem borderSpacing?_ne_some_nil (name : Text) : borderSpacing? name ≠ some [] := by
  apply bind_ne_some_nil
  intro token
  split <;> exact map_ne_some_nil fun _ => List.cons_ne_nil _ _

theorem outlineOffset?_ne_some_nil (sign : Sign) (name : Text) :
    outlineOffset? sign name ≠ some [] := by
  apply bind_ne_some_nil
  intro token
  exact map_ne_some_nil fun _ => List.cons_ne_nil _ _

theorem rotate?_ne_some_nil (sign : Sign) (name : Text) : rotate? sign name ≠ some [] := by
  apply bind_ne_some_nil
  intro token
  exact map_ne_some_nil fun _ => List.cons_ne_nil _ _

theorem backdropBlur?_ne_some_nil (name : Text) : backdropBlur? name ≠ some [] :=
  map_ne_some_nil fun _ => List.cons_ne_nil _ _

/-- A class for the sides of a box names them between its letter and a hyphen. -/
theorem exists_side_of_box? {letter : Char} {property name token : Text} {properties : List Text}
    (found : box? letter property name = some (properties, token)) :
    ∃ entry ∈ sides, name = letter :: entry.1 ++ '-' :: token ∧
      properties = entry.2.map (property ++ ·) := by
  simp only [box?] at found
  split at found
  · rename_i first side rest cut
    split at found
    · rename_i isLetter
      simp only [Option.map_eq_some_iff, Prod.mk.injEq] at found
      rcases found with ⟨suffixes, listed, rfl, rfl⟩
      subst isLetter
      exact ⟨(side, suffixes), Dictionary.mem_of_lookup_eq_some listed,
        Text.cutFirst?_eq_some cut, rfl⟩
    · cases found
  · cases found

/-- A class for the sides of a box sets at least one of them. -/
theorem box?_fst_ne_nil {letter : Char} {property name token : Text} {properties : List Text}
    (found : box? letter property name = some (properties, token)) : properties ≠ [] := by
  rcases exists_side_of_box? found with ⟨entry, member, -, rfl⟩
  have declaring : ∀ entry ∈ sides, entry.2 ≠ [] := by decide
  simpa using declaring entry member

/-- A length for the sides of a box is declared at least once. -/
theorem bind_box?_ne_some_nil (letter : Char) (property name : Text)
    (length? : Text → Option Text) :
    ((box? letter property name).bind fun (properties, token) =>
      (length? token).map fun length => properties.map (Declaration.mk · length)) ≠ some [] := by
  cases found : box? letter property name with
  | none => simp
  | some box =>
      apply map_ne_some_nil
      simpa using box?_fst_ne_nil found

theorem padding?_ne_some_nil (name : Text) : padding? name ≠ some [] :=
  bind_box?_ne_some_nil 'p' "padding" name Spacing.length?

theorem margin?_ne_some_nil (sign : Sign) (name : Text) : margin? sign name ≠ some [] :=
  bind_box?_ne_some_nil 'm' "margin" name (marginValue? sign)

end Measure

theorem Color.Target.declarations?_ne_some_nil (target : Target) (palette : Palette)
    (name : Text) : target.declarations? palette name ≠ some [] := by
  apply map_ne_some_nil
  intro value
  split <;> exact List.cons_ne_nil _ _

namespace Plugin

theorem paint?_ne_some_nil (target : Color.Target) (palette : Palette) (name : Text) :
    paint? target palette name ≠ some [] := by
  rw [paint?]
  split
  · simp
  · exact target.declarations?_ne_some_nil palette name

theorem declarations?_ne_some_nil (palette : Palette) (sign : Sign) (name : Text)
    (plugin : Plugin) : plugin.declarations? palette sign name ≠ some [] := by
  have listed {lead property : Text} {values : Dictionary Text} :
      (Keywords.setting lead property values).declarations? name ≠ some [] :=
    Keywords.declarations?_ne_some_nil (Keywords.isDeclaring_setting lead property values) name
  have unknown : none ≠ some ([] : List Declaration) := by simp
  cases sign with
  | negative =>
      cases plugin with
      | outlineOffset => exact Measure.outlineOffset?_ne_some_nil .negative name
      | rotate => exact Measure.rotate?_ne_some_nil .negative name
      | margin => exact Measure.margin?_ne_some_nil .negative name
      | _ => exact unknown
  | positive =>
      cases plugin with
      | display | visibility | textAlign | fontWeight | placeContent | placeItems | alignContent
        | gridAutoFlow | mixBlendMode => exact listed
      | wordBreak => exact Keywords.declarations?_ne_some_nil Keywords.isDeclaring_wordBreak name
      | fontSize => exact Keywords.declarations?_ne_some_nil Keywords.isDeclaring_fontSize name
      | opacity => exact Measure.opacity?_ne_some_nil name
      | content => exact Measure.content?_ne_some_nil name
      | borderSpacing => exact Measure.borderSpacing?_ne_some_nil name
      | outlineOffset => exact Measure.outlineOffset?_ne_some_nil .positive name
      | rotate => exact Measure.rotate?_ne_some_nil .positive name
      | backdropBlur => exact Measure.backdropBlur?_ne_some_nil name
      | padding => exact Measure.padding?_ne_some_nil name
      | margin => exact Measure.margin?_ne_some_nil .positive name
      | fill => exact paint?_ne_some_nil Color.fill palette name
      | stroke => exact paint?_ne_some_nil Color.stroke palette name
      | textColor => exact Color.text.declarations?_ne_some_nil palette name
      | backgroundColor => exact Color.background.declarations?_ne_some_nil palette name
      | borderColor => exact Color.border.declarations?_ne_some_nil palette name

end Plugin

namespace Settings

theorem declarations?_ne_some_nil (settings : Settings) (className : Text) :
    settings.declarations? className ≠ some [] := by
  rcases cut : Sign.cut className with ⟨sign, name⟩
  simp only [declarations?, cut]
  split
  · simp
  · intro found
    rcases List.exists_of_findSome?_eq_some found with ⟨plugin, -, declared⟩
    exact plugin.declarations?_ne_some_nil settings.palette sign name declared

theorem utility?_declares {settings : Settings} {className : Text} {utility : Utility}
    (found : settings.utility? className = some utility) : utility.declarations ≠ [] := by
  rw [utility?, Option.map_eq_some_iff] at found
  rcases found with ⟨declarations, declared, rfl⟩
  rintro (none : declarations = [])
  subst none
  exact settings.declarations?_ne_some_nil className declared

end Settings

end AtomicCss
