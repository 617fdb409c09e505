import AtomicCss.Proofs.Catalog.Declared
import Mathlib.Data.List.Pairwise

/-!
# How classes tell plugins apart

A plugin either lists its classes, or knows them by how they start and leaves open what follows. No
class is listed by two plugins. The classes of one plugin may start like those of another one only
for a few pairs of rivals, and for these it is what follows that decides. So two plugins that are no
rivals never declare anything for the same class, whatever the palette and the sign.
-/

namespace AtomicCss

/-- The classes that a family lists, in full. -/
def Keywords.names (family : Keywords) : List Text :=
  family.meanings.map fun (word, _) => family.lead ++ word

theorem Keywords.exists_word_of_declares {family : Keywords} {name : Text}
    (declares : (family.declarations? name).isSome = true) :
    ∃ entry ∈ family.meanings, name = family.lead ++ entry.1 := by
  rcases Option.isSome_iff_exists.mp declares with ⟨declarations, found⟩
  rcases Option.bind_eq_some_iff.mp found with ⟨word, afterLead, listed⟩
  exact ⟨(word, declarations), Dictionary.mem_of_lookup_eq_some listed,
    Text.after?_eq_some_iff.mp afterLead⟩

theorem Keywords.mem_names_of_declares {family : Keywords} {name : Text}
    (declares : (family.declarations? name).isSome = true) : name ∈ family.names := by
  rcases exists_word_of_declares declares with ⟨entry, member, rfl⟩
  exact List.mem_map_of_mem member

/-- What is found by reading on after a lead is found behind it. -/
theorem Text.exists_eq_append_of_bind_after? {Found : Type} {read : Text → Option Found}
    {text lead : Text} (found : ((text.after? lead).bind read).isSome = true) :
    ∃ rest, text = lead ++ rest ∧ (read rest).isSome = true := by
  rcases Option.isSome_iff_exists.mp found with ⟨value, foundEq⟩
  rcases Option.bind_eq_some_iff.mp foundEq with ⟨rest, afterLead, readEq⟩
  exact ⟨rest, Text.after?_eq_some_iff.mp afterLead, by rw [readEq]; rfl⟩

theorem Text.prefix_of_bind_after? {Found : Type} {read : Text → Option Found} {text lead : Text}
    (found : ((text.after? lead).bind read).isSome = true) : lead <+: text := by
  rcases exists_eq_append_of_bind_after? found with ⟨rest, rfl, -⟩
  exact List.prefix_append lead rest

theorem Color.Target.exists_token_of_declares {target : Color.Target} {palette : Palette}
    {name : Text} (declares : (target.declarations? palette name).isSome = true) :
    ∃ token, name = target.lead ++ token ∧ (Color.value? palette token).isSome = true := by
  rw [declarations?, Option.isSome_map] at declares
  exact Text.exists_eq_append_of_bind_after? declares

theorem Plugin.prefix_of_paint? {target : Color.Target} {palette : Palette} {name : Text}
    (declares : (paint? target palette name).isSome = true) : target.lead <+: name := by
  rw [paint?] at declares
  split at declares
  · rename_i isNone
    rw [isNone]
    exact List.prefix_append target.lead _
  · rcases target.exists_token_of_declares declares with ⟨token, rfl, -⟩
    exact List.prefix_append target.lead token

namespace Measure

theorem exists_token_of_content? {name : Text} (declares : (content? name).isSome = true) :
    ∃ token : Text, name = "content-" ++ token ∧ (contentValue? token).isSome = true := by
  rw [content?, Option.isSome_map] at declares
  exact Text.exists_eq_append_of_bind_after? declares

theorem prefix_of_backdropBlur? {name : Text} (declares : (backdropBlur? name).isSome = true) :
    ("backdrop-blur" : Text) <+: name := by
  rw [backdropBlur?, Option.isSome_map, blurRadius?] at declares
  split at declares
  · rename_i isBare
    subst isBare
    exact List.prefix_rfl
  · rcases Text.exists_eq_append_of_bind_after? declares with ⟨token, rfl, -⟩
    exact ⟨'-' :: token, rfl⟩

/-- How the classes for the sides of a box start. -/
def boxLeads (letter : Char) : List Text :=
  sides.map fun (side, _) => letter :: side ++ "-"

theorem exists_boxLead_of_found {letter : Char} {property name : Text}
    (found : (box? letter property name).isSome = true) :
    ∃ lead ∈ boxLeads letter, lead <+: name := by
  rcases Option.isSome_iff_exists.mp found with ⟨⟨properties, token⟩, foundEq⟩
  rcases exists_side_of_box? foundEq with ⟨entry, member, rfl, -⟩
  exact ⟨_, List.mem_map_of_mem member, token, by simp⟩

end Measure

namespace Plugin

/-- The family of a plugin that lists its classes. -/
def family? : Plugin → Option Keywords
  | .display => some Keywords.display
  | .visibility => some Keywords.visibility
  | .wordBreak => some Keywords.wordBreak
  | .textAlign => some Keywords.textAlign
  | .fontSize => some Keywords.fontSize
  | .fontWeight => some Keywords.fontWeight
  | .placeContent => some Keywords.placeContent
  | .placeItems => some Keywords.placeItems
  | .alignContent => some Keywords.alignContent
  | .gridAutoFlow => some Keywords.gridAutoFlow
  | .mixBlendMode => some Keywords.mixBlendMode
  | _ => none

/-- The classes that a plugin lists. -/
def names (plugin : Plugin) : List Text :=
  (plugin.family?.map Keywords.names).getD []

/-- How the classes start that a plugin does not list. -/
def leads : Plugin → List Text
  | .opacity => ["opacity-"]
  | .content => ["content-"]
  | .borderSpacing => ["border-spacing-"]
  | .outlineOffset => ["outline-offset-"]
  | .rotate => ["rotate-"]
  | .backdropBlur => ["backdrop-blur"]
  | .padding => Measure.boxLeads 'p'
  | .margin => Measure.boxLeads 'm'
  | .fill => ["fill-"]
  | .stroke => ["stroke-"]
  | .textColor => ["text-"]
  | .backgroundColor => ["bg-"]
  | .borderColor => ["border-"]
  | _ => []

/-- Whether a class is listed by a plugin or starts like its classes. -/
def Covers (plugin : Plugin) (name : Text) : Prop :=
  name ∈ plugin.names ∨ ∃ lead ∈ plugin.leads, lead <+: name

theorem mem_all (plugin : Plugin) : plugin ∈ all := by
  cases plugin <;> decide

/-- Whether a plugin declares something for a class. -/
def serves (palette : Palette) (className : Text) (plugin : Plugin) : Bool :=
  (plugin.declarations? palette (Sign.cut className).1 (Sign.cut className).2).isSome

variable {palette : Palette} {sign : Sign} {name : Text} {plugin first second : Plugin}

theorem mem_names_of_declares {family : Keywords} (known : plugin.family? = some family)
    (declares : (plugin.declarations? palette sign name).isSome = true) : name ∈ plugin.names := by
  rw [names, known]
  apply Keywords.mem_names_of_declares
  cases sign with
  | positive => cases plugin <;> cases known <;> exact declares
  | negative => cases plugin <;> cases known <;> cases declares

/-- The plugins that know negative values. -/
def signed : List Plugin :=
  [.margin, .outlineOffset, .rotate]

theorem mem_signed_of_negative
    (declares : (plugin.declarations? palette .negative name).isSome = true) :
    plugin ∈ signed := by
  cases plugin with
  | margin | outlineOffset | rotate => decide
  | _ => cases declares

theorem exists_lead_of_signed (isSigned : plugin ∈ signed)
    (declares : (plugin.declarations? palette sign name).isSome = true) :
    ∃ lead ∈ plugin.leads, lead <+: name := by
  simp only [signed, List.mem_cons, List.not_mem_nil, or_false] at isSigned
  rcases isSigned with rfl | rfl | rfl
  · exact Measure.exists_boxLead_of_found (Option.isSome_of_isSome_bind declares)
  · exact ⟨"outline-offset-", List.mem_cons_self, Text.prefix_of_bind_after? declares⟩
  · exact ⟨"rotate-", List.mem_cons_self, Text.prefix_of_bind_after? declares⟩

/-- A plugin that lists no classes declares something only behind one of its leads. -/
theorem exists_lead_of_declares (unlisted : plugin.family? = none)
    (declares : (plugin.declarations? palette sign name).isSome = true) :
    ∃ lead ∈ plugin.leads, lead <+: name := by
  cases sign with
  | negative => exact exists_lead_of_signed (mem_signed_of_negative declares) declares
  | positive =>
      cases plugin with
      | display | visibility | wordBreak | textAlign | fontSize | fontWeight | placeContent
        | placeItems | alignContent | gridAutoFlow | mixBlendMode => cases unlisted
      | margin | outlineOffset | rotate => exact exists_lead_of_signed (by decide) declares
      | opacity => exact ⟨"opacity-", List.mem_cons_self, Text.prefix_of_bind_after? declares⟩
      | content =>
          rcases Measure.exists_token_of_content? declares with ⟨token, rfl, -⟩
          exact ⟨"content-", List.mem_cons_self, List.prefix_append _ token⟩
      | borderSpacing =>
          exact ⟨"border-spacing-", List.mem_cons_self, Text.prefix_of_bind_after? declares⟩
      | backdropBlur =>
          exact ⟨"backdrop-blur", List.mem_cons_self, Measure.prefix_of_backdropBlur? declares⟩
      | padding =>
          exact Measure.exists_boxLead_of_found (Option.isSome_of_isSome_bind declares)
      | fill => exact ⟨"fill-", List.mem_cons_self, prefix_of_paint? declares⟩
      | stroke => exact ⟨"stroke-", List.mem_cons_self, prefix_of_paint? declares⟩
      | textColor =>
          rcases Color.text.exists_token_of_declares declares with ⟨token, rfl, -⟩
          exact ⟨"text-", List.mem_cons_self, List.prefix_append _ token⟩
      | backgroundColor =>
          rcases Color.background.exists_token_of_declares declares with ⟨token, rfl, -⟩
          exact ⟨"bg-", List.mem_cons_self, List.prefix_append _ token⟩
      | borderColor =>
          rcases Color.border.exists_token_of_declares declares with ⟨token, rfl, -⟩
          exact ⟨"border-", List.mem_cons_self, List.prefix_append _ token⟩

/-- A plugin covers every class that it declares something for. -/
theorem covers_of_declares (declares : (plugin.declarations? palette sign name).isSome = true) :
    plugin.Covers name := by
  cases known : plugin.family? with
  | none => exact .inr (exists_lead_of_declares known declares)
  | some family => exact .inl (mem_names_of_declares known declares)

/-! ### Plugins that cover nothing in common -/

/-- Whether no class is covered by both plugins. -/
def AreApart (first second : Plugin) : Prop :=
  (∀ name ∈ first.names, name ∉ second.names ∧ ∀ lead ∈ second.leads, ¬lead <+: name) ∧
  ∀ lead ∈ first.leads, (∀ name ∈ second.names, ¬lead <+: name) ∧
    ∀ other ∈ second.leads, ¬lead <+: other ∧ ¬other <+: lead

instance (first second : Plugin) : Decidable (AreApart first second) :=
  inferInstanceAs (Decidable (_ ∧ _))

theorem AreApart.symm (apart : AreApart first second) : AreApart second first := by
  rcases apart with ⟨namesApart, leadsApart⟩
  refine ⟨fun name member => ⟨?_, ?_⟩, fun lead member => ⟨?_, ?_⟩⟩
  · exact fun otherMember => (namesApart name otherMember).1 member
  · exact fun lead leadMember => (leadsApart lead leadMember).1 name member
  · exact fun name nameMember => (namesApart name nameMember).2 lead member
  · exact fun other otherMember => ((leadsApart other otherMember).2 lead member).symm

theorem AreApart.not_covers (apart : AreApart first second) (covers : first.Covers name) :
    ¬second.Covers name := by
  rcases apart with ⟨namesApart, leadsApart⟩
  rcases covers with listed | ⟨lead, leadMember, starts⟩
  · rintro (otherListed | ⟨other, otherMember, otherStarts⟩)
    · exact (namesApart name listed).1 otherListed
    · exact (namesApart name listed).2 other otherMember otherStarts
  · rintro (otherListed | ⟨other, otherMember, otherStarts⟩)
    · exact (leadsApart lead leadMember).1 name otherListed starts
    · have neitherFirst := (leadsApart lead leadMember).2 other otherMember
      rcases List.prefix_or_prefix_of_prefix starts otherStarts with shorter | shorter
      · exact neitherFirst.1 shorter
      · exact neitherFirst.2 shorter

/-- The pairs of plugins whose classes may start alike. -/
def rivals : List (Plugin × Plugin) :=
  [(.textAlign, .textColor), (.fontSize, .textColor), (.content, .alignContent),
    (.borderSpacing, .borderColor)]

def AreRivals (first second : Plugin) : Prop :=
  (first, second) ∈ rivals ∨ (second, first) ∈ rivals

instance : Std.Symm fun first second => AreApart first second ∨ AreRivals first second where
  symm _ _ := Or.imp AreApart.symm Or.symm

/-- Any two plugins cover nothing in common, unless they are rivals. -/
theorem areApart_or_areRivals (different : first ≠ second) :
    AreApart first second ∨ AreRivals first second := by
  have pairs : all.Pairwise fun first second =>
      AreApart first second ∨ AreRivals first second := by
    unfold AreRivals
    decide +kernel
  exact pairs.forall (mem_all first) (mem_all second) different

/-- Only rivals can declare something for the same class. -/
theorem eq_or_areRivals_of_declares
    (firstDeclares : (first.declarations? palette sign name).isSome = true)
    (secondDeclares : (second.declarations? palette sign name).isSome = true) :
    first = second ∨ AreRivals first second := by
  by_cases same : first = second
  · exact .inl same
  · rcases areApart_or_areRivals same with apart | areRivals
    · exact absurd (covers_of_declares secondDeclares)
        (apart.not_covers (covers_of_declares firstDeclares))
    · exact .inr areRivals

/-- A plugin that knows negative values shares its classes with no other plugin. -/
theorem eq_of_mem_signed (isSigned : first ∈ signed)
    (firstDeclares : (first.declarations? palette sign name).isSome = true)
    (secondDeclares : (second.declarations? palette sign name).isSome = true) :
    first = second := by
  have noRivals : ∀ first ∈ signed, ∀ second ∈ all, ¬AreRivals first second := by
    unfold AreRivals
    decide
  rcases eq_or_areRivals_of_declares firstDeclares secondDeclares with same | areRivals
  · exact same
  · exact absurd areRivals (noRivals first isSigned second (mem_all second))

end Plugin

end AtomicCss
