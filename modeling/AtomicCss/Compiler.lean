import AtomicCss.Catalog
import AtomicCss.Rule.Printer
import AtomicCss.Usage

/-!
# Compiling

A compiler knows variants by a vocabulary and utilities by their names. It turns one candidate into
a rule or a refusal, and a batch of candidates into the outcomes for its distinct members, each at
the place of its first occurrence. A refusal never affects another candidate.
-/

namespace AtomicCss

/-- A vocabulary of variants together with the utilities that they may be applied to. -/
structure Compiler where
  vocabulary : Vocabulary
  utility? : Text → Option Utility

structure Outcome where
  candidate : Text
  result : Except Refusal Rule

def Outcome.rule? (outcome : Outcome) : Option Rule :=
  outcome.result.toOption

namespace Compiler

/-- The compiler for a project. -/
def ofSettings (settings : Settings) : Compiler :=
  ⟨⟨settings.screens⟩, settings.utility?⟩

/-- The utility with this name, or the refusal of a name that no utility has. -/
def utility (compiler : Compiler) (name : Text) : Except Refusal Utility :=
  match compiler.utility? name with
  | some utility => .ok utility
  | none => .error (.unknownUtility name)

/-- The rule for a candidate. -/
def compile (compiler : Compiler) (candidate : Text) : Except Refusal Rule := do
  let usage ← compiler.vocabulary.usage candidate
  let utility ← compiler.utility usage.base
  usage.rule utility

/-- The outcomes for the distinct candidates of a batch, in the order of their first
occurrences. -/
def compileAll (compiler : Compiler) (candidates : List Text) : List Outcome :=
  candidates.eraseDups.map fun candidate => ⟨candidate, compiler.compile candidate⟩

def rules (compiler : Compiler) (candidates : List Text) : List Rule :=
  (compiler.compileAll candidates).filterMap Outcome.rule?

end Compiler

/-- The style sheet that a batch yields; refused candidates contribute nothing. -/
def Outcome.printAll (layout : Layout) (outcomes : List Outcome) : Text :=
  Rule.printAll layout (outcomes.filterMap Outcome.rule?)

end AtomicCss
