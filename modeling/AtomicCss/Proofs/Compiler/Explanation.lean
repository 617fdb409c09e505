import AtomicCss.CommandLine.Explanation
import AtomicCss.Proofs.Catalog.Declared
import AtomicCss.Proofs.Compiler.Stages
import Mathlib.Data.List.Forall2

/-!
# Explanations agree with the compiler

An explanation looks at a candidate three times: it splits it, it looks up its variants, and it
compiles it. Each of these stages refuses a candidate for the reason for which the compiler refuses
it, so that the last line of an explanation is the compiler's verdict and no line before it is one.
The rule is shown whenever there is one, since a rule from the catalog always declares something.
-/

namespace AtomicCss

theorem Rule.exists_print?_eq_some {rule : Rule} (declares : rule.declarations ≠ [])
    (layout : Layout) : ∃ printed, rule.print? layout = some printed := by
  simp [print?, declares]

namespace Compiler

/-- Whether a line states how a candidate fared. -/
def IsVerdict (line : Text) : Prop :=
  ("skipped: " : Text) <+: line ∨ line = "rule:"

/-- An explanation that ends with the reason for a refusal, and mentions neither another reason nor
a rule. -/
structure ExplainsRefusal (lines : List Text) (refusal : Refusal) : Prop where
  ends : ∃ before, lines = before ++ ["skipped: " ++ refusal.message] ∧
    ∀ line ∈ before, ¬("skipped: " : Text) <+: line
  noRule : ("rule:" : Text) ∉ lines

/-- The names under which the kinds of variants are reported. -/
def kindNames : List (Variant.Kind × Text) :=
  [(.responsive, "Responsive"), (.pseudoClass, "PseudoClass"), (.pseudoElement, "PseudoElement"),
    (.aria, "Aria"), (.data, "Data"), (.supports, "Supports"), (.minWidth, "MinWidth"),
    (.maxWidth, "MaxWidth"), (.mediaFeature, "MediaFeature"),
    (.arbitrarySelector, "ArbitrarySelector"), (.arbitraryMedia, "ArbitraryMedia")]

/-- A line that states a variant: the segment as written, the name of its kind and what it stands
for. -/
def StatesVariant (variant : Variant) (line : Text) : Prop :=
  ∃ name, (variant.kind, name) ∈ kindNames ∧
    line = "variant: " ++ variant.written ++ " (" ++ name ++ ") " ++ variant.parameter

/-- An explanation that shows the stages of a candidate and the rule that it yields: the segments
with the base in angle brackets, one line for each variant, the base, and the rule as it is
printed. -/
def ExplainsRule (compiler : Compiler) (candidate : Text) (lines : List Text) (rule : Rule) :
    Prop :=
  ∃ split usage stated printed,
    Candidate.split candidate = .ok split ∧
    compiler.vocabulary.usage candidate = .ok usage ∧
    List.Forall₂ StatesVariant usage.chain stated ∧
    rule.print? .pretty = some printed ∧
    lines = ["candidate: " ++ candidate,
        "segments: " ++
          (" | " : Text).intercalate (split.variants ++ ["<" ++ split.base ++ ">"])] ++
      stated ++ ["base: " ++ usage.base, "rule:"] ++
      (Text.lines printed).map (("  " : Text) ++ ·)

/-! ### Lines that state variants -/

theorem statesVariant_variantLine (variant : Variant) :
    StatesVariant variant (variantLine variant) := by
  refine ⟨variant.kind.name, ?_, rfl⟩
  cases variant.kind <;> simp only [kindNames, Variant.Kind.name, List.mem_cons, true_or, or_true]

theorem forall₂_map_variantLine (chain : List Variant) :
    List.Forall₂ StatesVariant chain (chain.map variantLine) := by
  rw [List.forall₂_map_right_iff, List.forall₂_same]
  intro variant _
  exact statesVariant_variantLine variant

/-! ### Lines that state no verdict -/

theorem not_isVerdict {line : Text} (notSkipped : line.after? "skipped: " = none)
    (notRule : line.after? "rule:" = none) : ¬IsVerdict line := by
  rintro (⟨rest, rfl⟩ | rfl)
  · rw [Text.after?_eq_some_iff.mpr rfl] at notSkipped
    cases notSkipped
  · cases notRule

theorem not_isVerdict_candidate (candidate : Text) : ¬IsVerdict ("candidate: " ++ candidate) :=
  not_isVerdict rfl rfl

theorem not_isVerdict_segmentsLine (split : Candidate.Split) : ¬IsVerdict (segmentsLine split) :=
  not_isVerdict rfl rfl

theorem not_isVerdict_variantLine (variant : Variant) : ¬IsVerdict (variantLine variant) :=
  not_isVerdict rfl rfl

theorem not_isVerdict_base (base : Text) : ¬IsVerdict ("base: " ++ base) :=
  not_isVerdict rfl rfl

theorem explainsRefusal_append {before : List Text} (none : ∀ line ∈ before, ¬IsVerdict line)
    (refusal : Refusal) : ExplainsRefusal (before ++ [skippedLine refusal]) refusal := by
  refine ⟨⟨before, rfl, fun line member skips => none line member (.inl skips)⟩, ?_⟩
  intro member
  rcases List.mem_append.mp member with member | member
  · exact none _ member (.inr rfl)
  · cases List.mem_singleton.mp member

/-! ### Stages -/

section Stages

variable {compiler : Compiler} {candidate : Text}

theorem explain_of_split_error {refusal : Refusal}
    (refused : Candidate.split candidate = .error refusal) :
    compiler.explain candidate = ["candidate: " ++ candidate] ++ [skippedLine refusal] := by
  rw [explain, refused]
  rfl

variable {split : Candidate.Split} (splits : Candidate.split candidate = .ok split)

include splits

theorem explain_of_usage_error {refusal : Refusal}
    (refused : compiler.vocabulary.usage candidate = .error refusal) :
    compiler.explain candidate =
      ["candidate: " ++ candidate, segmentsLine split] ++ [skippedLine refusal] := by
  rw [explain, splits]
  simp only [refused]
  rfl

theorem explain_of_usage {usage : Usage}
    (understood : compiler.vocabulary.usage candidate = .ok usage) :
    compiler.explain candidate =
      ["candidate: " ++ candidate, segmentsLine split] ++ usage.chain.map variantLine ++
        ["base: " ++ usage.base] ++
        match compiler.compile candidate with
        | .error refusal => [skippedLine refusal]
        | .ok rule => ruleLines rule := by
  rw [explain, splits, List.append_assoc, List.append_assoc]
  simp only [understood]
  rfl

end Stages

theorem exists_split_of_usage {vocabulary : Vocabulary} {candidate : Text} {usage : Usage}
    (understood : vocabulary.usage candidate = .ok usage) :
    ∃ split, Candidate.split candidate = .ok split := by
  rcases Vocabulary.usage_eq_ok understood with ⟨-, split, splits, -⟩
  exact ⟨split, splits⟩

theorem explainsRefusal_of_compile_error {settings : Settings} {candidate : Text}
    {refusal : Refusal} (refused : (ofSettings settings).compile candidate = .error refusal) :
    ExplainsRefusal ((ofSettings settings).explain candidate) refusal := by
  cases splits : Candidate.split candidate with
  | error reason =>
      have same : (ofSettings settings).compile candidate = .error reason :=
        compile_of_usage_error (Vocabulary.usage_of_split_error splits)
      rw [refused] at same
      cases same
      rw [explain_of_split_error splits]
      apply explainsRefusal_append
      rw [List.forall_mem_singleton]
      exact not_isVerdict_candidate candidate
  | ok split =>
      cases understood : (ofSettings settings).vocabulary.usage candidate with
      | error reason =>
          rw [compile_of_usage_error understood] at refused
          cases refused
          rw [explain_of_usage_error splits understood]
          apply explainsRefusal_append
          rw [List.forall_mem_cons, List.forall_mem_singleton]
          exact ⟨not_isVerdict_candidate candidate, not_isVerdict_segmentsLine split⟩
      | ok usage =>
          rw [explain_of_usage splits understood, refused]
          apply explainsRefusal_append
          simp only [List.forall_mem_append, List.forall_mem_cons, List.forall_mem_map,
            List.not_mem_nil, false_implies, implies_true, and_true]
          exact ⟨⟨⟨not_isVerdict_candidate candidate, not_isVerdict_segmentsLine split⟩,
            fun variant _ => not_isVerdict_variantLine variant⟩, not_isVerdict_base usage.base⟩

theorem explainsRule_of_compile_ok {settings : Settings} {candidate : Text} {rule : Rule}
    (compiled : (ofSettings settings).compile candidate = .ok rule) :
    (ofSettings settings).ExplainsRule candidate ((ofSettings settings).explain candidate)
      rule := by
  rcases compile_eq_ok compiled with ⟨usage, plan, declarations, understood, declared, -, ruleEq⟩
  rcases exists_split_of_usage understood with ⟨split, splits⟩
  have declares : rule.declarations ≠ [] := by
    rw [ruleEq]
    rintro (rfl : declarations = [])
    exact settings.declarations?_ne_some_nil usage.base declared
  rcases Rule.exists_print?_eq_some declares .pretty with ⟨printed, isPrinted⟩
  refine ⟨split, usage, usage.chain.map variantLine, printed, splits, understood,
    forall₂_map_variantLine usage.chain, isPrinted, ?_⟩
  rw [explain_of_usage splits understood, compiled]
  simp only [ruleLines, isPrinted, List.append_assoc]
  rfl

/-- An explanation ends with the verdict of the compiler: the reason for which a candidate is
refused, or the rule that it yields, which is never without declarations. -/
theorem explain_verdict (settings : Settings) (candidate : Text) :
    (match (ofSettings settings).compile candidate with
      | .error refusal => ExplainsRefusal ((ofSettings settings).explain candidate) refusal
      | .ok rule => (ofSettings settings).ExplainsRule candidate
          ((ofSettings settings).explain candidate) rule) ∧
    ∀ name utility, settings.utility? name = some utility → utility.declarations ≠ [] := by
  refine ⟨?_, fun name utility => Settings.utility?_declares⟩
  cases compiled : (ofSettings settings).compile candidate with
  | error refusal => exact explainsRefusal_of_compile_error compiled
  | ok rule => exact explainsRule_of_compile_ok compiled

theorem explain_verdict_flex :
    (ofSettings .standard).explain "md:hover:flex" =
      [("candidate: md:hover:flex" : Text),
        ("segments: md | hover | <flex>" : Text),
        ("variant: md (Responsive) 768px" : Text),
        ("variant: hover (PseudoClass) :hover" : Text),
        ("base: flex" : Text),
        ("rule:" : Text),
        ("  @media (min-width: 768px) \x7b" : Text),
        ("    .md\\:hover\\:flex:hover \x7b" : Text),
        ("      display: flex;" : Text),
        ("    \x7d" : Text),
        ("  \x7d" : Text)] ∧
    (ofSettings .standard).ExplainsRule "md:hover:flex"
      ((ofSettings .standard).explain "md:hover:flex")
      ⟨".md\\:hover\\:flex:hover", [⟨.media, "(min-width: 768px)"⟩], [⟨"display", "flex"⟩]⟩ ∧
    (ofSettings .standard).explain "wobble:flex" =
      [("candidate: wobble:flex" : Text),
        ("segments: wobble | <flex>" : Text),
        ("skipped: unknown variant `wobble`" : Text)] ∧
    ExplainsRefusal ((ofSettings .standard).explain "wobble:flex") (.unknownVariant "wobble") ∧
    ∃ utility, Settings.standard.utility? "flex" = some utility ∧ utility.declarations ≠ [] := by
  have compiled : (ofSettings .standard).compile "md:hover:flex" =
      .ok ⟨".md\\:hover\\:flex:hover", [⟨.media, "(min-width: 768px)"⟩],
        [⟨"display", "flex"⟩]⟩ := rfl
  have refused : (ofSettings .standard).compile "wobble:flex" =
      .error (.unknownVariant "wobble") := rfl
  have showsRule := (explain_verdict .standard "md:hover:flex").1
  have showsRefusal := (explain_verdict .standard "wobble:flex").1
  rw [compiled] at showsRule
  rw [refused] at showsRefusal
  have declares := (explain_verdict .standard "flex").2 "flex" _ rfl
  refine ⟨?_, showsRule, ?_, showsRefusal, _, rfl, declares⟩
  · decide +kernel
  · decide +kernel

end Compiler

end AtomicCss
