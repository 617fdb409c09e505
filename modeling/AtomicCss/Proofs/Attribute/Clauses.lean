import AtomicCss.Proofs.Bracket.Reading
import AtomicCss.Proofs.Literal.Reading
import AtomicCss.Proofs.Variant.Forms

/-!
# Attribute clauses

A clause is a name after the name of its family, and perhaps a literal in double quotes. Authors
write keys and values as they like, with brackets and quotes of either kind in them, but as long as
they write no backslash, what they write becomes such a clause or is not accepted at all. All that
is left of their text outside the name stands in the literal, so that no reader of the selector
notices anything in a clause.
-/

namespace AtomicCss

namespace Attribute

open Text

/-- The shapes of a clause. Of the double quotes in its value each has exactly one backslash. -/
inductive IsClause (family : Text) : Text → Prop
  | present {name : Text} (isName : isName name = true) : IsClause family (family ++ '-' :: name)
  | valued {name value : Text} (isName : isName name = true)
      (isBody : Literal.IsBody '"' value) (guarded : EachAfter (·.pending = 1) '"' value) :
      IsClause family (family ++ '-' :: name ++ '=' :: ('"' :: value ++ ['"']))

theorem isNameChar_of_isName {text : Text} (name : isName text = true) :
    ∀ char ∈ text, isNameChar char = true := by
  simp only [isName, Bool.and_eq_true, List.all_eq_true] at name
  exact name.2

theorem isClause_of_clause? {family inside clause : Text} (noBackslash : '\\' ∉ inside)
    (states : clause? family inside = some clause) : IsClause family clause := by
  simp only [clause?] at states
  split at states
  · split at states
    · rename_i isName
      cases states
      exact .present isName
    · cases states
  · rename_i name value cut
    split at states
    · rename_i filled
      cases states
      rw [Bool.and_eq_true] at filled
      have valueNoBackslash : '\\' ∉ Literal.inside value := by
        intro member
        apply Bracket.noBackslash_unescape noBackslash
        apply mem_of_mem_trim
        rw [cutFirst?_eq_some cut]
        simp [Literal.mem_of_mem_inside member]
      exact .valued filled.1 (Literal.isBody_flatMap_guarded valueNoBackslash)
        (Literal.eachAfter_flatMap_guarded valueNoBackslash)
    · cases states

theorem isClause_of_mem_ariaStates {state : Text} (known : state ∈ Variant.ariaStates) :
    IsClause "aria" ("aria-" ++ state ++ "=\"true\"") := by
  have names : Variant.ariaStates.all isName = true := rfl
  exact @IsClause.valued "aria" state "true" (List.all_eq_true.mp names state known) (by decide)
    (by decide)

/-- A clause consists of names, an equals sign and a literal, which hide every mark. -/
theorem IsClause.isClear {mark : Char → Bool} (punctuation : IsPunctuation mark)
    {family clause : Text} (familyName : ∀ char ∈ family, isNameChar char = true)
    (isClause : IsClause family clause) : clause.IsClear mark := by
  have lead : IsClear mark (family ++ ['-']) := by
    apply isClear_of_isNameChar punctuation
    intro char member
    rcases List.mem_append.mp member with inFamily | isHyphen
    · exact familyName char inFamily
    · rw [List.mem_singleton.mp isHyphen]
      rfl
  have equals : IsClear mark ['='] :=
    Quoting.scan_cons_of_unmarked (punctuation '=' (.inr (.inr rfl))) _ _
  cases isClause with
  | present isName =>
      have nameClear := isClear_of_isNameChar punctuation (isNameChar_of_isName isName)
      simpa using lead.append nameClear
  | valued isName isBody _ =>
      have nameClear := isClear_of_isNameChar punctuation (isNameChar_of_isName isName)
      have literalClear : IsClear mark _ := Literal.isClear_of_isBody isBody
      simpa using lead.append (nameClear.append (equals.append literalClear))

end Attribute

namespace Variant

theorem Kind.isNameChar_of_family? {kind : Kind} {family : Text}
    (belongs : kind.family? = some family) : ∀ char ∈ family, isNameChar char = true := by
  cases kind <;> cases belongs <;> exact List.all_eq_true.mp rfl

/-- Only clauses belong to a family of attributes. -/
theorem family?_of_mem_named {word parameter : Text} {kind : Kind}
    (listed : (word, kind, parameter) ∈ named) : kind.family? = none := by
  have all : named.all (fun entry => entry.2.1.family?.isNone) = true := rfl
  exact Option.isNone_iff_eq_none.mp (List.all_eq_true.mp all _ listed)

theorem SelectorForm.starts {segment parameter family : Text} {kind : Kind}
    (form : SelectorForm segment kind parameter) (belongs : kind.family? = some family) :
    family ++ ['-'] <+: segment := by
  cases form with
  | word listed =>
      rw [family?_of_mem_named listed] at belongs
      cases belongs
  | @state state _ written =>
      cases belongs
      subst written
      exact ⟨state, rfl⟩
  | @clause _ _ inside _ belongsToo written =>
      rw [belongs] at belongsToo
      cases belongsToo
      subst written
      exact ⟨'[' :: inside ++ [']'], by simp⟩
  | fragment => cases belongs

theorem SelectorForm.isClause {segment parameter family : Text} {kind : Kind}
    (form : SelectorForm segment kind parameter) (belongs : kind.family? = some family)
    (noBackslash : '\\' ∉ segment) : Attribute.IsClause family parameter := by
  cases form with
  | word listed =>
      rw [family?_of_mem_named listed] at belongs
      cases belongs
  | state known =>
      cases belongs
      exact Attribute.isClause_of_mem_ariaStates known
  | clause belongsToo written states =>
      rw [belongs] at belongsToo
      cases belongsToo
      subst written
      simp only [List.mem_append, List.mem_cons, not_or] at noBackslash
      exact Attribute.isClause_of_clause? noBackslash.1.2.2.2 states
  | fragment => cases belongs

theorem SelectorForm.isClear {mark : Char → Bool} (punctuation : IsPunctuation mark)
    {segment parameter family : Text} {kind : Kind} (form : SelectorForm segment kind parameter)
    (belongs : kind.family? = some family) (noBackslash : '\\' ∉ segment) :
    parameter.IsClear mark :=
  (form.isClause belongs noBackslash).isClear punctuation (Kind.isNameChar_of_family? belongs)

end Variant

end AtomicCss
