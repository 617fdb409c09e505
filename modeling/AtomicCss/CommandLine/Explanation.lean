import AtomicCss.Compiler

/-!
# Explanations

An explanation follows one candidate through the compiler: its segments, its variants with what
they stand for, its base, and the rule. It ends early, with the reason, where the compiler does.
-/

namespace AtomicCss.Compiler

def skippedLine (refusal : Refusal) : Text :=
  "skipped: " ++ refusal.message

/-- The line that lists the segments of a candidate, with the base in angle brackets. -/
def segmentsLine (split : Candidate.Split) : Text :=
  let base := '<' :: split.base ++ ['>']
  "segments: " ++ (" | " : Text).intercalate (split.variants ++ [base])

/-- The line that states what a variant stands for. -/
def variantLine (variant : Variant) : Text :=
  "variant: " ++ variant.written ++ " (" ++ variant.kind.name ++ ") " ++ variant.parameter

/-- The lines that show a rule; a rule that prints nothing has none. -/
def ruleLines (rule : Rule) : List Text :=
  match rule.print? .pretty with
  | some printed => "rule:" :: (Text.lines printed).map ("  " ++ ·)
  | none => []

def explain (compiler : Compiler) (candidate : Text) : List Text :=
  ("candidate: " ++ candidate) ::
    match Candidate.split candidate with
    | .error refusal => [skippedLine refusal]
    | .ok split =>
        segmentsLine split ::
          match compiler.vocabulary.usage candidate with
          | .error refusal => [skippedLine refusal]
          | .ok usage =>
              usage.chain.map variantLine ++ ("base: " ++ usage.base) ::
                match compiler.compile candidate with
                | .error refusal => [skippedLine refusal]
                | .ok rule => ruleLines rule

end AtomicCss.Compiler
