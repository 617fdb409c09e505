import AtomicCss.Refusal
import AtomicCss.Variant.Matcher

/-!
# Vocabularies

The segments that count as variants: those that some matcher recognises, given the configured
screens. The first matcher that recognises a segment decides how it is read.
-/

namespace AtomicCss

/-- The breakpoints that stand beside the fixed words and forms, each with its minimum width. -/
structure Vocabulary where
  screens : Dictionary Text
  deriving DecidableEq, Repr

namespace Vocabulary

def variant? (vocabulary : Vocabulary) (segment : Text) : Option Variant :=
  Matcher.all.findSome? fun matcher => matcher.variant? vocabulary.screens segment

/-- The variant that a segment writes, or the refusal of a segment that writes none. -/
def variant (vocabulary : Vocabulary) (segment : Text) : Except Refusal Variant :=
  match vocabulary.variant? segment with
  | some variant => .ok variant
  | none => .error (.unknownVariant segment)

/-- The variants that a row of segments writes; the first segment that writes none is refused. -/
def chain (vocabulary : Vocabulary) (segments : List Text) : Except Refusal (List Variant) :=
  segments.mapM vocabulary.variant

end Vocabulary

end AtomicCss
