import AtomicCss.Identifier
import AtomicCss.Rule

/-!
# Utilities

A utility gives a class its declarations. Its template is a selector in which the class occurs, and
variants act on that occurrence.
-/

namespace AtomicCss

/-- A selector with a class in it, and what that class declares. -/
structure Utility where
  template : Text
  declarations : List Declaration
  deriving DecidableEq, Repr

def Utility.ofClass (name : Text) (declarations : List Declaration) : Utility :=
  ⟨Identifier.classSelector name, declarations⟩

end AtomicCss
