import AtomicCss.Proofs.Candidate.Segments
import AtomicCss.Proofs.Compiler.Stages
import AtomicCss.Proofs.Rule.Plan
import AtomicCss.Proofs.Variant.Forms

/-!
# Reasons for refusal

A candidate yields a rule if it splits, has a base that is a utility and variants that are all
known, and does not mix fragments with named selector variants. Otherwise the first of these
conditions that fails is the reason for its refusal, and there is no other: the template of a
utility from the catalog always holds the class that it was asked for.

`Accepts` and `Refuses` say this of the segments of a candidate, without the chain and the plan that
the compiler makes of them. One of the two always applies, and the compiler does what it says.
-/

namespace AtomicCss

theorem Candidate.exists_eq_of_split_error {candidate : Text} {refusal : Refusal}
    (refused : split candidate = .error refusal) :
    ∃ remainder, refusal = .unbalanced candidate remainder := by
  rcases split_eq_error_iff_splitFrom.mp refused with ⟨remainder, -, isUnbalanced⟩
  exact ⟨remainder, isUnbalanced⟩

namespace Vocabulary

variable {vocabulary : Vocabulary}

/-- Whether a segment writes a fragment. -/
def writesFragment (vocabulary : Vocabulary) (segment : Text) : Bool :=
  (vocabulary.variant? segment).any (·.kind = .arbitrarySelector)

def writesNamedSelector (vocabulary : Vocabulary) (segment : Text) : Bool :=
  (vocabulary.variant? segment).any (·.kind.isNamedSelector)

def isUnknown (vocabulary : Vocabulary) (segment : Text) : Bool :=
  (vocabulary.variant? segment).isNone

/-- Whether fragments and named selector variants stand in the same row of segments. -/
def mixesSelectors (vocabulary : Vocabulary) (segments : List Text) : Bool :=
  segments.any vocabulary.writesFragment && segments.any vocabulary.writesNamedSelector

/-- The chain of a row of segments holds one variant for each of them. -/
theorem chain_eq_ok_iff {segments : List Text} {chain : List Variant} :
    vocabulary.chain segments = .ok chain ↔
      segments.map vocabulary.variant? = chain.map some := by
  induction segments generalizing chain with
  | nil => cases chain <;> simp [chain_nil]
  | cons segment segments ih =>
      rw [chain_cons, List.map_cons]
      cases vocabulary.variant? segment with
      | none => cases chain <;> simp
      | some variant =>
          cases others : vocabulary.chain segments with
          | error refusal =>
              have noChain (rest : List Variant) :
                  segments.map vocabulary.variant? ≠ rest.map some := by
                intro same
                rw [ih.mpr same] at others
                cases others
              cases chain <;> simp [Except.map, noChain]
          | ok rest =>
              have same := ih.mp others
              cases chain <;> simp [Except.map, same, List.map_inj_right]

theorem exists_chain_of_known {segments : List Text}
    (known : ∀ segment ∈ segments, vocabulary.isUnknown segment = false) :
    ∃ chain, vocabulary.chain segments = .ok chain := by
  refine ⟨segments.filterMap vocabulary.variant?, chain_eq_ok_iff.mpr ?_⟩
  induction segments with
  | nil => rfl
  | cons segment segments ih =>
      have others := ih (fun other member => known other (by simp [member]))
      have first := known segment (by simp)
      rw [isUnknown, Option.isNone_eq_false_iff, Option.isSome_iff_exists] at first
      rcases first with ⟨variant, read⟩
      simp [read, others]

theorem chain_of_unknown {segments : List Text} {segment : Text}
    (leftmost : segments.find? vocabulary.isUnknown = some segment) :
    vocabulary.chain segments = .error (.unknownVariant segment) := by
  induction segments with
  | nil => cases leftmost
  | cons first segments ih =>
      rw [chain_cons]
      cases read : vocabulary.variant? first with
      | none =>
          rw [List.find?_cons_of_pos (by simp [isUnknown, read])] at leftmost
          cases leftmost
          rfl
      | some variant =>
          rw [List.find?_cons_of_neg (by simp [isUnknown, read])] at leftmost
          rw [ih leftmost]
          rfl

theorem hasFragment_chain {segments : List Text} {chain : List Variant}
    (understood : vocabulary.chain segments = .ok chain) :
    Plan.hasFragment chain = segments.any vocabulary.writesFragment := by
  rw [chain_eq_ok_iff] at understood
  have asAny : segments.any vocabulary.writesFragment =
      (segments.map vocabulary.variant?).any (·.any (·.kind = .arbitrarySelector)) := by
    rw [List.any_map]
    rfl
  rw [asAny, understood, List.any_map]
  rfl

/-- The leftmost named selector variant of a chain is what the leftmost such segment writes. -/
theorem find?_isNamedSelector_chain {segments : List Text} {chain : List Variant}
    (understood : vocabulary.chain segments = .ok chain) :
    (chain.find? (·.kind.isNamedSelector)).map Variant.written =
      segments.find? vocabulary.writesNamedSelector := by
  rw [chain_eq_ok_iff] at understood
  induction segments generalizing chain with
  | nil =>
      cases chain with
      | nil => rfl
      | cons variant chain => cases understood
  | cons segment segments ih =>
      cases chain with
      | nil => cases understood
      | cons variant chain =>
          simp only [List.map_cons, List.cons.injEq] at understood
          rcases understood with ⟨read, others⟩
          have named : vocabulary.writesNamedSelector segment = variant.kind.isNamedSelector := by
            rw [writesNamedSelector, read]
            rfl
          rw [List.find?_cons, List.find?_cons, named]
          cases variant.kind.isNamedSelector with
          | true => simp [(variant?_eq_some read).1]
          | false => exact ih others

theorem ofChain_of_mixed {segments : List Text} {chain : List Variant} {segment : Text}
    (understood : vocabulary.chain segments = .ok chain)
    (mixes : vocabulary.mixesSelectors segments = true)
    (leftmost : segments.find? vocabulary.writesNamedSelector = some segment) :
    Plan.ofChain chain = .error (.mixedSelectors segment) := by
  rw [mixesSelectors, Bool.and_eq_true, ← hasFragment_chain understood] at mixes
  rw [← find?_isNamedSelector_chain understood, Option.map_eq_some_iff] at leftmost
  rcases leftmost with ⟨variant, found, rfl⟩
  simp [Plan.ofChain, Plan.misplaced?, mixes.1, found]

theorem exists_ofChain_of_unmixed {segments : List Text} {chain : List Variant}
    (understood : vocabulary.chain segments = .ok chain)
    (unmixed : vocabulary.mixesSelectors segments = false) :
    ∃ plan, Plan.ofChain chain = .ok plan := by
  rw [mixesSelectors, ← hasFragment_chain understood] at unmixed
  have noneMisplaced : Plan.misplaced? chain = none := by
    rw [Plan.misplaced?]
    split
    · rename_i hasFragment
      rw [hasFragment, Bool.true_and, List.any_eq_false] at unmixed
      rw [← List.find?_eq_none, ← find?_isNamedSelector_chain understood] at unmixed
      exact Option.map_eq_none_iff.mp unmixed
    · rfl
  simp [Plan.ofChain, noneMisplaced]

end Vocabulary

namespace Compiler

/-- What the segments of a candidate must be for it to yield a rule. -/
structure Accepts (settings : Settings) (split : Candidate.Split) : Prop where
  hasBase : split.base ≠ []
  known : ∀ segment ∈ split.variants,
    (ofSettings settings).vocabulary.isUnknown segment = false
  declared : (settings.utility? split.base).isSome = true
  unmixed : (ofSettings settings).vocabulary.mixesSelectors split.variants = false

/-- Why a candidate is refused. Each reason presupposes that none of those before it applies. -/
inductive Refuses (settings : Settings) (candidate : Text) : Refusal → Prop
  | unbalanced {remainder : Text}
      (splits : Candidate.split candidate = .error (.unbalanced candidate remainder)) :
      Refuses settings candidate (.unbalanced candidate remainder)
  | noBase {split : Candidate.Split} (splits : Candidate.split candidate = .ok split)
      (noBase : split.base = []) : Refuses settings candidate (.unknownUtility candidate)
  | unknownVariant {split : Candidate.Split} {segment : Text}
      (splits : Candidate.split candidate = .ok split) (hasBase : split.base ≠ [])
      (leftmost : split.variants.find? (ofSettings settings).vocabulary.isUnknown = some segment) :
      Refuses settings candidate (.unknownVariant segment)
  | unknownBase {split : Candidate.Split}
      (splits : Candidate.split candidate = .ok split) (hasBase : split.base ≠ [])
      (known : ∀ segment ∈ split.variants,
        (ofSettings settings).vocabulary.isUnknown segment = false)
      (undeclared : settings.utility? split.base = none) :
      Refuses settings candidate (.unknownUtility split.base)
  | mixedSelectors {split : Candidate.Split} {segment : Text}
      (splits : Candidate.split candidate = .ok split) (hasBase : split.base ≠ [])
      (known : ∀ segment ∈ split.variants,
        (ofSettings settings).vocabulary.isUnknown segment = false)
      (declared : (settings.utility? split.base).isSome = true)
      (mixes : (ofSettings settings).vocabulary.mixesSelectors split.variants = true)
      (leftmost : split.variants.find? (ofSettings settings).vocabulary.writesNamedSelector =
        some segment) :
      Refuses settings candidate (.mixedSelectors segment)

section Stages

variable {settings : Settings} {candidate : Text} {split : Candidate.Split}
  (splits : Candidate.split candidate = .ok split) (hasBase : split.base ≠ [])

include splits hasBase

theorem compile_of_unknown {segment : Text}
    (leftmost : split.variants.find? (ofSettings settings).vocabulary.isUnknown = some segment) :
    (ofSettings settings).compile candidate = .error (.unknownVariant segment) := by
  apply compile_of_usage_error
  rw [Vocabulary.usage_of_split splits, if_neg (by simpa using hasBase),
    Vocabulary.chain_of_unknown leftmost]
  rfl

/-- Once all its variants are known, a candidate is refused for its base or for its plan. -/
theorem compile_of_known
    (known : ∀ segment ∈ split.variants,
      (ofSettings settings).vocabulary.isUnknown segment = false) :
    ∃ usage : Usage, (ofSettings settings).vocabulary.chain split.variants = .ok usage.chain ∧
      (ofSettings settings).compile candidate =
        match settings.declarations? split.base with
        | none => .error (.unknownUtility split.base)
        | some declarations =>
            (Plan.ofChain usage.chain).map fun plan =>
              ⟨plan.selector (usage.subject plan), plan.atRules, declarations⟩ := by
  rcases Vocabulary.exists_chain_of_known known with ⟨chain, chained⟩
  have understood : (ofSettings settings).vocabulary.usage candidate =
      .ok ⟨candidate, chain, split.base⟩ := by
    rw [Vocabulary.usage_of_split splits, if_neg (by simpa using hasBase), chained]
    rfl
  exact ⟨⟨candidate, chain, split.base⟩, chained, compile_of_usage understood⟩

end Stages

theorem isSome_utility? (settings : Settings) (name : Text) :
    (settings.utility? name).isSome = (settings.declarations? name).isSome := by
  simp [Settings.utility?]

theorem compile_of_refuses {settings : Settings} {candidate : Text} {refusal : Refusal}
    (refused : Refuses settings candidate refusal) :
    (ofSettings settings).compile candidate = .error refusal := by
  cases refused with
  | unbalanced splits => exact compile_of_usage_error (Vocabulary.usage_of_split_error splits)
  | noBase splits noBase =>
      apply compile_of_usage_error
      rw [Vocabulary.usage_of_split splits, if_pos (by simpa using noBase)]
  | unknownVariant splits hasBase leftmost => exact compile_of_unknown splits hasBase leftmost
  | @unknownBase split splits hasBase known undeclared =>
      rcases compile_of_known splits hasBase known with ⟨usage, -, compiled⟩
      have nothing : settings.declarations? split.base = none := by
        simpa [Settings.utility?] using undeclared
      rw [compiled, nothing]
  | @mixedSelectors split segment splits hasBase known declared mixes leftmost =>
      rcases compile_of_known splits hasBase known with ⟨usage, chained, compiled⟩
      rw [isSome_utility?, Option.isSome_iff_exists] at declared
      rcases declared with ⟨declarations, declared⟩
      rw [compiled, declared, Vocabulary.ofChain_of_mixed chained mixes leftmost]
      rfl

theorem exists_compile_eq_ok_of_accepts {settings : Settings} {candidate : Text}
    {split : Candidate.Split} (splits : Candidate.split candidate = .ok split)
    (accepted : Accepts settings split) :
    ∃ rule, (ofSettings settings).compile candidate = .ok rule := by
  rcases compile_of_known splits accepted.hasBase accepted.known with ⟨usage, chained, compiled⟩
  have declared := accepted.declared
  rw [isSome_utility?, Option.isSome_iff_exists] at declared
  rcases declared with ⟨declarations, declared⟩
  rcases Vocabulary.exists_ofChain_of_unmixed chained accepted.unmixed with ⟨plan, planned⟩
  rw [compiled, declared, planned]
  exact ⟨_, rfl⟩

/-- No candidate escapes both verdicts. -/
theorem accepts_or_refuses (settings : Settings) (candidate : Text) :
    (∃ split, Candidate.split candidate = .ok split ∧ Accepts settings split) ∨
      ∃ refusal, Refuses settings candidate refusal := by
  cases splits : Candidate.split candidate with
  | error refusal =>
      rcases Candidate.exists_eq_of_split_error splits with ⟨remainder, rfl⟩
      exact .inr ⟨_, .unbalanced splits⟩
  | ok split =>
      by_cases hasBase : split.base = []
      · exact .inr ⟨_, .noBase splits hasBase⟩
      cases unknown : split.variants.find? (ofSettings settings).vocabulary.isUnknown with
      | some segment => exact .inr ⟨_, .unknownVariant splits hasBase unknown⟩
      | none =>
          have known : ∀ segment ∈ split.variants,
              (ofSettings settings).vocabulary.isUnknown segment = false := by
            simpa using unknown
          cases declared : settings.utility? split.base with
          | none => exact .inr ⟨_, .unknownBase splits hasBase known declared⟩
          | some utility =>
              have isSome : (settings.utility? split.base).isSome = true := by rw [declared]; rfl
              cases mixes : (ofSettings settings).vocabulary.mixesSelectors split.variants with
              | false => exact .inl ⟨split, rfl, hasBase, known, isSome, mixes⟩
              | true =>
                  have hasNamed := (Bool.and_eq_true_iff.mp mixes).2
                  rw [← List.isSome_find?, Option.isSome_iff_exists] at hasNamed
                  rcases hasNamed with ⟨segment, leftmost⟩
                  exact .inr ⟨_, .mixedSelectors splits hasBase known isSome mixes leftmost⟩

/-- The catalog gives a utility the template that its use asks for. -/
theorem rule_ne_unknownUtility {settings : Settings} {usage : Usage} {utility : Utility}
    (found : settings.utility? usage.base = some utility) :
    usage.rule utility ≠ .error (.unknownUtility usage.base) := by
  simp only [Settings.utility?, Option.map_eq_some_iff] at found
  rcases found with ⟨declarations, -, rfl⟩
  rw [Usage.rule_ofClass]
  cases planned : Plan.ofChain usage.chain with
  | ok plan => simp [Except.map]
  | error refusal =>
      rcases Plan.exists_eq_of_ofChain_error planned with ⟨segment, rfl⟩
      simp [Except.map]

/-- A candidate yields a rule exactly if it is accepted, and otherwise it is refused for the first
reason that applies and for no other. In particular the template of a utility from the catalog is
never the reason. -/
theorem compile_verdict (settings : Settings) (candidate : Text) :
    ((∃ rule, (ofSettings settings).compile candidate = .ok rule) ↔
      ∃ split, Candidate.split candidate = .ok split ∧ Accepts settings split) ∧
    (∀ refusal, (ofSettings settings).compile candidate = .error refusal ↔
      Refuses settings candidate refusal) ∧
    ∀ (usage : Usage) (utility : Utility), settings.utility? usage.base = some utility →
      usage.rule utility ≠ .error (.unknownUtility usage.base) := by
  refine ⟨⟨?_, ?_⟩, fun refusal => ⟨?_, compile_of_refuses⟩, fun _ _ => rule_ne_unknownUtility⟩
  · rintro ⟨rule, compiled⟩
    rcases accepts_or_refuses settings candidate with accepted | ⟨refusal, refused⟩
    · exact accepted
    · rw [compile_of_refuses refused] at compiled
      cases compiled
  · rintro ⟨split, splits, accepted⟩
    exact exists_compile_eq_ok_of_accepts splits accepted
  · intro compiled
    rcases accepts_or_refuses settings candidate with ⟨split, splits, accepted⟩ | ⟨other, refused⟩
    · rcases exists_compile_eq_ok_of_accepts splits accepted with ⟨rule, isRule⟩
      rw [isRule] at compiled
      cases compiled
    · rw [compile_of_refuses refused] at compiled
      cases compiled
      exact refused

/-- With four faults at once, the leftmost unknown variant is what the author is told. -/
example : (ofSettings .standard).compile "hover:wobble:[&:focus]:wibble:nothing" =
    .error (.unknownVariant "wobble") := rfl

end Compiler

end AtomicCss
