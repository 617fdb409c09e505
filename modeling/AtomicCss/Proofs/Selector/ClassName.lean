import AtomicCss.Proofs.Compiler.Stages
import AtomicCss.Proofs.Identifier.Units
import AtomicCss.Proofs.Rule.Plan
import AtomicCss.Proofs.Variant.Forms

/-!
# The class in a selector

Without fragments in its chain, a candidate is compiled to a rule whose selector names the class of
the whole candidate and puts after it what the variants ask for. That text starts with a colon or a
bracket, which no identifier goes on with, so that a reader of the style sheet finds the end of the
class name where the compiler put it and decodes the candidate from it.
-/

namespace AtomicCss

namespace Variant

/-- What may follow the class of a candidate directly: nothing, or the start of a further
condition. -/
def startsCondition (suffix : Text) : Bool :=
  suffix.head?.all fun char => char = ':' || char = '['

theorem startsCondition_append {left right : Text} (leftStarts : startsCondition left = true)
    (rightStarts : startsCondition right = true) : startsCondition (left ++ right) = true := by
  cases left with
  | nil => exact rightStarts
  | cons char left => exact leftStarts

/-- The words of the vocabulary that change the selector stand for conditions. -/
theorem startsCondition_of_mem_named :
    ∀ entry ∈ named, entry.2.1.isNamedSelector = true → startsCondition entry.2.2 = true := by
  decide

theorem startsCondition_suffix {vocabulary : Vocabulary} {segment : Text} {variant : Variant}
    (found : vocabulary.variant? segment = some variant) :
    startsCondition variant.suffix = true := by
  have pseudo (isPseudo : variant.kind = .pseudoClass ∨ variant.kind = .pseudoElement) :
      startsCondition variant.parameter = true := by
    have notAtRule : variant.kind.isAtRule = false := by
      rcases isPseudo with kindEq | kindEq <;> rw [kindEq] <;> rfl
    have form := Vocabulary.selectorForm_of_variant? found notAtRule
    generalize variant.kind = kind at isPseudo form
    generalize variant.parameter = parameter at form
    cases form with
    | word listed =>
        apply startsCondition_of_mem_named _ listed
        rcases isPseudo with rfl | rfl <;> rfl
    | state known written => simp at isPseudo
    | clause belongs written states => rcases isPseudo with rfl | rfl <;> cases belongs
    | fragment written holds spliceable => simp at isPseudo
  cases kindEq : variant.kind with
  | pseudoClass => simpa [suffix, step?, kindEq] using pseudo (.inl kindEq)
  | pseudoElement => simpa [suffix, step?, kindEq] using pseudo (.inr kindEq)
  | aria | data => simp [suffix, step?, kindEq, startsCondition]
  | _ => simp [suffix, step?, kindEq, startsCondition]

theorem startsCondition_flatMap_suffix {vocabulary : Vocabulary} {segments : List Text}
    {chain : List Variant} (understood : vocabulary.chain segments = .ok chain) :
    startsCondition (chain.flatMap suffix) = true := by
  have each : ∀ variant ∈ chain, startsCondition variant.suffix = true := by
    intro variant member
    rcases Vocabulary.exists_mem_of_mem_chain understood member with ⟨segment, -, found⟩
    exact startsCondition_suffix found
  clear understood
  induction chain with
  | nil => rfl
  | cons variant chain ih =>
      rw [List.flatMap_cons]
      apply startsCondition_append
      · exact each variant (by simp)
      · exact ih (fun other member => each other (by simp [member]))

end Variant

namespace Identifier

theorem leadingUnit_of_startsCondition {suffix : Text}
    (starts : Variant.startsCondition suffix = true) : leadingUnit suffix = [] := by
  cases suffix with
  | nil => rfl
  | cons char suffix =>
      simp only [Variant.startsCondition, List.head?_cons, Option.all_some, Bool.or_eq_true,
        decide_eq_true_eq] at starts
      rcases starts with rfl | rfl
      · rfl
      · rfl

end Identifier

namespace Compiler

/-- A candidate is compiled by name if it yields a rule and no variant of its chain is a
fragment. -/
structure CompilesByName (compiler : Compiler) (candidate : Text) (rule : Rule) : Prop where
  compiled : compiler.compile candidate = .ok rule
  noFragment : ∃ usage, compiler.vocabulary.usage candidate = .ok usage ∧
    ∀ variant ∈ usage.chain, variant.kind ≠ .arbitrarySelector

theorem CompilesByName.exists_suffix {settings : Settings} {candidate : Text} {rule : Rule}
    (byName : (ofSettings settings).CompilesByName candidate rule) :
    ∃ suffix, rule.selector = '.' :: Identifier.encode candidate ++ suffix ∧
      Variant.startsCondition suffix = true := by
  rcases compile_eq_ok byName.compiled with
    ⟨usage, plan, declarations, understood, -, planned, rfl⟩
  rcases byName.noFragment with ⟨other, otherUnderstood, noFragment⟩
  rw [understood] at otherUnderstood
  cases otherUnderstood
  rw [← Plan.hasFragment_eq_false_iff] at noFragment
  rcases Vocabulary.usage_eq_ok understood with ⟨written, split, -, -, -, chained⟩
  rcases Plan.ofChain_eq_ok planned with ⟨subjectEq, stepsEq, -⟩
  refine ⟨usage.chain.flatMap Variant.suffix, ?_, Variant.startsCondition_flatMap_suffix chained⟩
  simp only [noFragment] at subjectEq
  simp only [Plan.selector, stepsEq, Plan.foldl_apply_eq_append noFragment, Usage.subject,
    subjectEq, written]
  rfl

theorem CompilesByName.leading_selector {settings : Settings} {candidate : Text} {rule : Rule}
    (byName : (ofSettings settings).CompilesByName candidate rule) :
    Identifier.leading rule.selector.tail = Identifier.encode candidate := by
  rcases byName.exists_suffix with ⟨suffix, selectorEq, starts⟩
  rw [selectorEq]
  exact Identifier.leading_encodeFrom_append (Identifier.leadingUnit_of_startsCondition starts)
    .start candidate

/-- A selector made by named variants is the class of the candidate with a suffix that an identifier
cannot run into. Reading it as a style sheet is read gives back the candidate, so that different
candidates have different selectors. -/
theorem selector_identifies_candidate (settings : Settings) {candidate : Text} {rule : Rule}
    (byName : (ofSettings settings).CompilesByName candidate rule) :
    (∃ suffix, rule.selector = '.' :: Identifier.encode candidate ++ suffix ∧
      (suffix = [] ∨ suffix.head? = some ':' ∨ suffix.head? = some '[') ∧
      Identifier.leading (Identifier.encode candidate ++ suffix) = Identifier.encode candidate) ∧
    Identifier.decode (Identifier.leading rule.selector.tail) = candidate ∧
    ∀ otherSettings other otherRule, (ofSettings otherSettings).CompilesByName other otherRule →
      other ≠ candidate → otherRule.selector ≠ rule.selector := by
  have readsBack := byName.leading_selector
  refine ⟨?_, by rw [readsBack, Identifier.decode_encode], ?_⟩
  · rcases byName.exists_suffix with ⟨suffix, selectorEq, starts⟩
    refine ⟨suffix, selectorEq, ?_, ?_⟩
    · cases suffix with
      | nil => exact .inl rfl
      | cons char suffix => simpa [Variant.startsCondition] using starts
    · rw [selectorEq] at readsBack
      exact readsBack
  · intro otherSettings other otherRule otherByName different sameSelector
    have otherReadsBack := otherByName.leading_selector
    rw [sameSelector, readsBack] at otherReadsBack
    apply different
    rw [← Identifier.decode_encode other, ← otherReadsBack, Identifier.decode_encode]

/-- Settings with a shade whose name ends a class in a hexadecimal escape. -/
def starShade : Settings := ⟨⟨"night", [], [("sky", [("★", "white")])]⟩, []⟩

/-- The space that ends the escape keeps the suffix apart from the class. -/
theorem selector_identifies_starShade :
    (ofSettings starShade).CompilesByName "hover:bg-sky-★"
      ⟨".hover\\:bg-sky-\\2605 :hover", [], [⟨"background-color", "white"⟩]⟩ ∧
    Identifier.decode (Identifier.leading "hover\\:bg-sky-\\2605 :hover") = "hover:bg-sky-★" ∧
    (".bg-sky-\\2605 " : Text) ≠ ".hover\\:bg-sky-\\2605 :hover" := by
  have hovered : (ofSettings starShade).CompilesByName "hover:bg-sky-★"
      ⟨".hover\\:bg-sky-\\2605 :hover", [], [⟨"background-color", "white"⟩]⟩ :=
    ⟨rfl, ⟨"hover:bg-sky-★", [⟨.pseudoClass, "hover", ":hover"⟩], "bg-sky-★"⟩, rfl, by decide⟩
  have plain : (ofSettings starShade).CompilesByName "bg-sky-★"
      ⟨".bg-sky-\\2605 ", [], [⟨"background-color", "white"⟩]⟩ :=
    ⟨rfl, ⟨"bg-sky-★", [], "bg-sky-★"⟩, rfl, by decide⟩
  rcases selector_identifies_candidate starShade hovered with ⟨-, readsBack, differs⟩
  exact ⟨hovered, readsBack, differs starShade _ _ plain (by decide)⟩

end Compiler

end AtomicCss
