import AtomicCss.Compiler
import AtomicCss.Proofs.Text.Affixes

/-!
# The stages of a compilation

A candidate is split, its base must not be empty, its variants are looked up, then its base, and
last a plan is made of the chain. The catalog gives every utility the class that it was asked for as
template, so that a compiler that works from it has no further way to refuse: the selector of the
rule is the one that the plan builds.
-/

namespace AtomicCss

namespace Vocabulary

variable {vocabulary : Vocabulary}

theorem usage_of_split_error {candidate : Text} {refusal : Refusal}
    (refused : Candidate.split candidate = .error refusal) :
    vocabulary.usage candidate = .error refusal := by
  rw [usage, refused]
  rfl

theorem usage_of_split {candidate : Text} {split : Candidate.Split}
    (splits : Candidate.split candidate = .ok split) :
    vocabulary.usage candidate =
      if split.base.isEmpty then .error (.unknownUtility candidate)
      else (vocabulary.chain split.variants).map fun chain => ⟨candidate, chain, split.base⟩ := by
  rw [usage, splits]
  simp only [bind, Except.bind]
  cases split.base.isEmpty with
  | true => rfl
  | false => cases vocabulary.chain split.variants <;> rfl

/-- What is known of a candidate that has been understood. -/
theorem usage_eq_ok {candidate : Text} {usage : Usage}
    (understood : vocabulary.usage candidate = .ok usage) :
    usage.written = candidate ∧
      ∃ split, Candidate.split candidate = .ok split ∧ split.base.isEmpty = false ∧
        usage.base = split.base ∧ vocabulary.chain split.variants = .ok usage.chain := by
  cases splits : Candidate.split candidate with
  | error refusal => simp [usage_of_split_error splits] at understood
  | ok split =>
      rw [usage_of_split splits] at understood
      split at understood
      · cases understood
      · rename_i hasBase
        cases found : vocabulary.chain split.variants with
        | error refusal => simp [found, Except.map] at understood
        | ok chain =>
            simp only [found, Except.map, Except.ok.injEq] at understood
            subst understood
            exact ⟨rfl, split, rfl, by simpa using hasBase, rfl, found⟩

end Vocabulary

theorem Usage.rule_of_planned {usage : Usage} {plan : Plan}
    (planned : Plan.ofChain usage.chain = .ok plan) (utility : Utility) :
    usage.rule utility =
      match utility.template.replaceFirst? (Identifier.classSelector usage.base)
          (plan.selector (usage.subject plan)) with
      | some selector => .ok ⟨selector, plan.atRules, utility.declarations⟩
      | none => .error (.unknownUtility usage.base) := by
  rw [rule, planned]
  rfl

theorem Usage.rule_ofClass (usage : Usage) (declarations : List Declaration) :
    usage.rule (Utility.ofClass usage.base declarations) =
      (Plan.ofChain usage.chain).map fun plan =>
        ⟨plan.selector (usage.subject plan), plan.atRules, declarations⟩ := by
  cases planned : Plan.ofChain usage.chain with
  | error refusal =>
      rw [rule, planned]
      rfl
  | ok plan =>
      rw [rule_of_planned planned, Utility.ofClass, Text.replaceFirst?_self]
      rfl

namespace Compiler

variable {settings : Settings}

theorem utility_ofSettings (name : Text) :
    (ofSettings settings).utility name =
      match settings.declarations? name with
      | none => .error (.unknownUtility name)
      | some declarations => .ok (Utility.ofClass name declarations) := by
  simp only [utility, ofSettings, Settings.utility?]
  cases settings.declarations? name <;> rfl

theorem compile_of_usage_error {candidate : Text} {refusal : Refusal}
    (refused : (ofSettings settings).vocabulary.usage candidate = .error refusal) :
    (ofSettings settings).compile candidate = .error refusal := by
  rw [compile, refused]
  rfl

/-- A candidate that has been understood is refused only if its base is no utility or its chain
has no plan. -/
theorem compile_of_usage {candidate : Text} {usage : Usage}
    (understood : (ofSettings settings).vocabulary.usage candidate = .ok usage) :
    (ofSettings settings).compile candidate =
      match settings.declarations? usage.base with
      | none => .error (.unknownUtility usage.base)
      | some declarations =>
          (Plan.ofChain usage.chain).map fun plan =>
            ⟨plan.selector (usage.subject plan), plan.atRules, declarations⟩ := by
  rw [compile, understood]
  simp only [bind, Except.bind, utility_ofSettings]
  cases settings.declarations? usage.base with
  | none => rfl
  | some declarations => exact usage.rule_ofClass declarations

theorem compile_eq_ok {candidate : Text} {rule : Rule}
    (compiled : (ofSettings settings).compile candidate = .ok rule) :
    ∃ usage plan declarations,
      (ofSettings settings).vocabulary.usage candidate = .ok usage ∧
        settings.declarations? usage.base = some declarations ∧
        Plan.ofChain usage.chain = .ok plan ∧
        rule = ⟨plan.selector (usage.subject plan), plan.atRules, declarations⟩ := by
  cases understood : (ofSettings settings).vocabulary.usage candidate with
  | error refusal => simp [compile_of_usage_error understood] at compiled
  | ok usage =>
      rw [compile_of_usage understood] at compiled
      cases declared : settings.declarations? usage.base with
      | none => simp [declared] at compiled
      | some declarations =>
          cases planned : Plan.ofChain usage.chain with
          | error refusal => simp [declared, planned, Except.map] at compiled
          | ok plan =>
              simp only [declared, planned, Except.map, Except.ok.injEq] at compiled
              exact ⟨usage, plan, declarations, rfl, declared, planned, compiled.symm⟩

end Compiler

end AtomicCss
