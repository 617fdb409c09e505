import AtomicCss.Proofs.Compiler.Stages
import AtomicCss.Proofs.Text.Occurrences

/-!
# The class in a template

A template names a class where the class stands in it and no longer name does: `.flexible` does not
name the class `flex`, although it starts like it. A use of a utility replaces the leftmost text
that reads like the utility's class. This is the class itself as long as no longer name that starts
like it stands further to the left, and only then: behind such a name the class is left alone, and
a template that holds only such names is not refused.
-/

namespace AtomicCss

namespace Identifier

/-- Whether `char`, read directly after a name, belongs to it. -/
def continuesName (char : Char) : Bool :=
  isNameChar char || char = '\\' || 0x80 ≤ char.toNat

theorem encodeFrom_letters (place : Place) (count : Nat) :
    encodeFrom place (List.replicate count 'a') = List.replicate count 'a' := by
  induction count generalizing place with
  | zero => rfl
  | succ count ih =>
      have bare : spelling place 'a' = .bare := by cases place <;> rfl
      simp only [List.replicate_succ, encodeFrom, bare, ih]

end Identifier

/-- The use of a utility without variants by a candidate of `count` letters. -/
def Usage.ofLetters (name : Text) (count : Nat) : Usage :=
  ⟨List.replicate count 'a', [], name⟩

namespace Utility

open Identifier Text

/-- Whether the class `name` stands in the template between `front` and `back`, and is not the
beginning of a longer name. -/
structure NamesClass (utility : Utility) (name front back : Text) : Prop where
  occurs : utility.template = front ++ classSelector name ++ back
  ends : back.head?.any continuesName = false

/-- Whether the template names the class between `front` and `back` and nowhere else. -/
structure NamesOnce (utility : Utility) (name front back : Text) : Prop
    extends NamesClass utility name front back where
  once : ∀ otherFront otherBack, utility.NamesClass name otherFront otherBack →
    otherFront = front ∧ otherBack = back

/-- Whether every use of the utility writes the selector that its plan builds between `front` and
`back`, with the at-rules of the plan and the declarations of the utility. -/
def Substitutes (utility : Utility) (name front back : Text) : Prop :=
  ∀ (usage : Usage) (plan : Plan), usage.base = name → Plan.ofChain usage.chain = .ok plan →
    usage.rule utility =
      .ok ⟨front ++ plan.selector (usage.subject plan) ++ back, plan.atRules, utility.declarations⟩

/-- Whether every use of the utility that has a plan is refused for its name. -/
def IsRefused (utility : Utility) (name : Text) : Prop :=
  ∀ (usage : Usage) (plan : Plan), usage.base = name → Plan.ofChain usage.chain = .ok plan →
    usage.rule utility = .error (.unknownUtility name)

variable {utility : Utility} {name front back : Text}

instance : Decidable (utility.NamesClass name front back) :=
  decidable_of_iff
    (utility.template = front ++ classSelector name ++ back ∧
      back.head?.any continuesName = false)
    ⟨fun both => ⟨both.1, both.2⟩, fun names => ⟨names.occurs, names.ends⟩⟩

theorem namesOnce_iff :
    utility.NamesOnce name front back ↔ utility.NamesClass name front back ∧
      ∀ place ∈ occurrences (classSelector name) utility.template,
        utility.NamesClass name place.1 place.2 → place = (front, back) := by
  constructor
  · intro once
    refine ⟨once.toNamesClass, fun place _ names => ?_⟩
    rcases once.once _ _ names with ⟨sameFront, sameBack⟩
    exact Prod.ext sameFront sameBack
  · rintro ⟨names, once⟩
    refine ⟨names, fun otherFront otherBack otherNames => ?_⟩
    have same := once _ (mem_occurrences_iff.mpr otherNames.occurs) otherNames
    exact ⟨congrArg Prod.fst same, congrArg Prod.snd same⟩

instance : Decidable (utility.NamesOnce name front back) :=
  decidable_of_iff _ namesOnce_iff.symm

/-! ### What is replaced -/

theorem substitutes_of_isLeftmost
    (here : IsLeftmost utility.template (classSelector name) front back) :
    utility.Substitutes name front back := by
  rintro usage plan rfl planned
  rw [Usage.rule_of_planned planned, replaceFirst?_of_isLeftmost here]

theorem isRefused_of_not_isInfix (missing : ¬classSelector name <:+: utility.template) :
    utility.IsRefused name := by
  rintro usage plan rfl planned
  rw [Usage.rule_of_planned planned, replaceFirst?_eq_none_iff.mpr missing]

/-! ### Telling two places apart -/

theorem rule_ofLetters (here : utility.Substitutes name front back) (count : Nat) :
    (Usage.ofLetters name count).rule utility =
      .ok ⟨front ++ '.' :: List.replicate count 'a' ++ back, [], utility.declarations⟩ := by
  have written : Plan.selector ⟨.candidate, [], []⟩ ((Usage.ofLetters name count).subject
      ⟨.candidate, [], []⟩) = '.' :: List.replicate count 'a' := by
    rw [← encodeFrom_letters .start count]
    rfl
  rw [here (.ofLetters name count) ⟨.candidate, [], []⟩ rfl rfl, written]

/-- A dot with many letters after it cannot stand in two places at once. -/
theorem not_shorter_of_dot {otherFront otherBack : Text} {count : Nat}
    (bounded : otherFront.length ≤ count)
    (same : front ++ '.' :: List.replicate count 'a' ++ back =
      otherFront ++ '.' :: List.replicate count 'a' ++ otherBack) :
    ¬front.length < otherFront.length := by
  intro shorter
  -- Where the second place has its dot, the first one has one of its letters.
  have dot : (otherFront ++ '.' :: List.replicate count 'a' ++ otherBack)[otherFront.length]? =
      some '.' := by
    simp
  obtain ⟨index, indexEq⟩ : ∃ index, otherFront.length = front.length + (index + 1) :=
    ⟨otherFront.length - front.length - 1, by omega⟩
  have letter : (front ++ '.' :: List.replicate count 'a' ++ back)[otherFront.length]? =
      some 'a' := by
    have within : index < count := by omega
    rw [indexEq, List.append_assoc, List.getElem?_append_right (by omega), Nat.add_sub_cancel_left,
      List.cons_append, List.getElem?_cons_succ, List.getElem?_append_left (by simpa using within)]
    simp [within]
  rw [same, dot] at letter
  exact absurd letter (by decide)

/-- Only one place can be the one that every use of a utility writes to. -/
theorem length_le_of_substitutes {otherFront otherBack : Text}
    (here : utility.Substitutes name front back)
    (there : utility.Substitutes name otherFront otherBack) : front.length ≤ otherFront.length := by
  have hereRule := rule_ofLetters here front.length
  rw [rule_ofLetters there front.length] at hereRule
  injection hereRule with sameRule
  exact Nat.not_lt.mp (not_shorter_of_dot (Nat.le_refl _) (congrArg Rule.selector sameRule))

/-- What is replaced in a template is the leftmost text that reads like the class, and a template
without such a text is refused. Where the template names the class once, the class is therefore
replaced in every use exactly if no longer name that starts like it stands to its left. Where it
does not name the class, it is refused exactly if it holds no such name either. -/
theorem substitutes_iff_isLeftmost (utility : Utility) (name : Text) :
    ((∃ front back, IsLeftmost utility.template (classSelector name) front back ∧
        utility.Substitutes name front back) ∨
      ¬classSelector name <:+: utility.template ∧ utility.IsRefused name) ∧
    (∀ front back, utility.NamesOnce name front back →
      (utility.Substitutes name front back ↔
        IsLeftmost utility.template (classSelector name) front back)) ∧
    ((∀ front back, ¬utility.NamesClass name front back) →
      (utility.IsRefused name ↔ ¬classSelector name <:+: utility.template)) := by
  refine ⟨?_, fun front back named => ⟨fun substitutes => ?_, substitutes_of_isLeftmost⟩,
    fun _ => ⟨fun refused occurs => ?_, isRefused_of_not_isInfix⟩⟩
  · by_cases occurs : classSelector name <:+: utility.template
    · rcases exists_isLeftmost occurs with ⟨front, back, here⟩
      exact .inl ⟨front, back, here, substitutes_of_isLeftmost here⟩
    · exact .inr ⟨occurs, isRefused_of_not_isInfix occurs⟩
  · refine ⟨named.occurs, fun otherFront otherBack occurs => ?_⟩
    have found : classSelector name <:+: utility.template := ⟨_, _, occurs.symm⟩
    rcases exists_isLeftmost found with ⟨first, rest, here⟩
    have fewest := length_le_of_substitutes substitutes (substitutes_of_isLeftmost here)
    exact Nat.le_trans fewest (here.leftmost _ _ occurs)
  · rcases exists_isLeftmost occurs with ⟨front, back, here⟩
    have replaced := rule_ofLetters (substitutes_of_isLeftmost here) 0
    rw [refused (.ofLetters name 0) ⟨.candidate, [], []⟩ rfl rfl] at replaced
    cases replaced

/-- A longer name to the right of the class is left alone. -/
theorem substitutes_iff_isLeftmost_longerNameAfter :
    NamesOnce ⟨".flex + .flexible", []⟩ "flex" [] " + .flexible" ∧
    Substitutes ⟨".flex + .flexible", []⟩ "flex" [] " + .flexible" ∧
    (∀ front back, ¬NamesClass ⟨".other", []⟩ "flex" front back) ∧
    IsRefused ⟨".other", []⟩ "flex" := by
  have named : NamesOnce ⟨".flex + .flexible", []⟩ "flex" [] " + .flexible" := by decide
  have missing : ¬classSelector "flex" <:+: (".other" : Text) :=
    occurrences_eq_nil_iff.mp (by decide)
  have unnamed : ∀ front back, ¬NamesClass ⟨".other", []⟩ "flex" front back :=
    fun front back names => missing ⟨front, back, names.occurs.symm⟩
  exact ⟨named, ((substitutes_iff_isLeftmost _ _).2.1 _ _ named).mpr (by decide), unnamed,
    ((substitutes_iff_isLeftmost _ _).2.2 unnamed).mpr missing⟩

/-- What `hover:flex` writes. -/
def hoverFlex : Usage :=
  ⟨"hover:flex", [⟨.pseudoClass, "hover", ":hover"⟩], "flex"⟩

/-- A utility whose template has a longer name to the left of its class. -/
def flexBehindRow : Utility :=
  ⟨".flex-row > .flex", [⟨"display", "flex"⟩]⟩

/-- A utility whose template has no class but a longer one. -/
def flexible : Utility :=
  ⟨".flexible", [⟨"display", "flex"⟩]⟩

/-- A longer name to the left of the class is rewritten in its place, and one that stands alone is
taken for the class. -/
theorem not_substitutes_longerNameBefore :
    flexBehindRow.NamesOnce "flex" ".flex-row > " [] ∧
    hoverFlex.rule flexBehindRow =
      .ok ⟨".hover\\:flex:hover-row > .flex", [], [⟨"display", "flex"⟩]⟩ ∧
    ¬flexBehindRow.Substitutes "flex" ".flex-row > " [] ∧
    (∀ front back, ¬flexible.NamesClass "flex" front back) ∧
    hoverFlex.rule flexible =
      .ok ⟨".hover\\:flex:hoverible", [], [⟨"display", "flex"⟩]⟩ ∧
    ¬flexible.IsRefused "flex" := by
  have planned : Plan.ofChain hoverFlex.chain = .ok ⟨.candidate, [.append ":hover"], []⟩ := rfl
  have behind : hoverFlex.rule flexBehindRow =
      .ok ⟨".hover\\:flex:hover-row > .flex", [], [⟨"display", "flex"⟩]⟩ := rfl
  have alone : hoverFlex.rule flexible =
      .ok ⟨".hover\\:flex:hoverible", [], [⟨"display", "flex"⟩]⟩ := rfl
  refine ⟨by decide, behind, fun substitutes => ?_, fun front back names => ?_, alone,
    fun refused => ?_⟩
  · rw [substitutes hoverFlex _ rfl planned] at behind
    injection behind with sameRule
    exact absurd (congrArg Rule.selector sameRule) (by decide)
  · have listed : occurrences (classSelector "flex") flexible.template =
        [([], String.toList "ible")] := by decide
    have only := mem_occurrences_iff.mpr names.occurs
    rw [listed, List.mem_singleton, Prod.mk.injEq] at only
    rcases only with ⟨-, rfl⟩
    exact absurd names.ends (by decide)
  · rw [refused hoverFlex _ rfl planned] at alone
    cases alone

end Utility

end AtomicCss
