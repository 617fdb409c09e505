import AtomicCss.Proofs.AtRule.Formatting
import AtomicCss.Rule.Printer

/-!
# The parts of a printed rule

A rule is printed from the texts of its parts: its selector, the conditions of its at-rules, and the
properties and values of its declarations. Apart from spaces, a layout puts no character into a
part that was not there, so that a character which no part has occurs in the printed rule only where
the layout itself writes it.
-/

namespace AtomicCss

/-- Whether a character occurs in no part of a rule. -/
structure Rule.Lacks (rule : Rule) (char : Char) : Prop where
  selector : char ∉ rule.selector
  conditions : ∀ atRule ∈ rule.atRules, char ∉ atRule.condition
  properties : ∀ declaration ∈ rule.declarations, char ∉ declaration.property
  values : ∀ declaration ∈ rule.declarations, char ∉ declaration.value

instance (rule : Rule) (char : Char) : Decidable (rule.Lacks char) :=
  decidable_of_iff (char ∉ rule.selector ∧ (∀ atRule ∈ rule.atRules, char ∉ atRule.condition) ∧
      (∀ declaration ∈ rule.declarations, char ∉ declaration.property) ∧
      ∀ declaration ∈ rule.declarations, char ∉ declaration.value)
    ⟨fun ⟨selector, conditions, properties, values⟩ => ⟨selector, conditions, properties, values⟩,
      fun ⟨selector, conditions, properties, values⟩ => ⟨selector, conditions, properties, values⟩⟩

namespace AtRule

/-- An at-rule up to its opening brace. -/
def heading (layout : Layout) (atRule : AtRule) : Text :=
  atRule.kind.keyword ++ ' ' :: Condition.format layout atRule.condition

theorem notMem_heading {atRule : AtRule} {char : Char} (lacks : char ∉ atRule.condition)
    (notSpace : char ≠ ' ') (foreign : ∀ kind : Kind, char ∉ kind.keyword) (layout : Layout) :
    char ∉ atRule.heading layout := by
  simp only [heading, List.mem_append, List.mem_cons, not_or]
  exact ⟨foreign atRule.kind, notSpace, Condition.notMem_format lacks notSpace layout⟩

end AtRule

/-- The declarations of a rule and its selector stay as they are under fewer at-rules. -/
theorem Rule.Lacks.inner {selector : Text} {atRule : AtRule} {atRules : List AtRule}
    {declarations : List Declaration} {char : Char}
    (lacks : Rule.Lacks ⟨selector, atRule :: atRules, declarations⟩ char) :
    Rule.Lacks ⟨selector, atRules, declarations⟩ char :=
  { lacks with
    conditions := fun inner member => lacks.conditions inner (List.mem_cons_of_mem atRule member) }

theorem Text.notMem_trim {text : Text} {char : Char} (lacks : char ∉ text) : char ∉ text.trim :=
  mt Text.mem_of_mem_trim lacks

end AtomicCss
