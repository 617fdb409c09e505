import AtomicCss.Bracket
import AtomicCss.Literal

/-!
# Attribute clauses

The inside of an attribute selector for the families `aria-` and `data-`: a name, and optionally a
value, which is always written in double quotes.
-/

namespace AtomicCss.Attribute

/-- Whether a text can name an attribute: one or more name characters. -/
def isName (text : Text) : Bool :=
  !text.isEmpty && text.all isNameChar

/-- The clause that the inside of a bracket states about an attribute of this family: that it is
present, or that it has a value. -/
def clause? (family inside : Text) : Option Text :=
  let text := (Bracket.unescape inside).trim
  match text.cutFirst? '=' with
  | none => if isName text then some (family ++ '-' :: text) else none
  | some (name, value) =>
      if isName name.trim && !value.trim.isEmpty then
        some (family ++ '-' :: name.trim ++ '=' :: Literal.ofValue value)
      else none

end AtomicCss.Attribute
