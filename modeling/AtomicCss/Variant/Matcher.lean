import AtomicCss.Attribute
import AtomicCss.Bracket.Content
import AtomicCss.Dictionary
import AtomicCss.Variant.Named

/-!
# Matchers

Each matcher recognises one form of segment. The fixed words and the configured screens are looked
up by name; the other matchers know a segment by how it starts and read what stands in its brackets.
-/

namespace AtomicCss

inductive Matcher
  | named
  | screen
  | aria
  | data
  | supports
  | minWidth
  | maxWidth
  | query
  | fragment
  deriving DecidableEq, Repr

namespace Matcher

/-- All matchers, in the order in which they are asked. -/
def all : List Matcher :=
  [.named, .screen, .aria, .data, .supports, .minWidth, .maxWidth, .query, .fragment]

/-- The name under which a matcher is reported. -/
def name : Matcher → String
  | .named => "static"
  | .screen => "responsive"
  | .aria => "aria"
  | .data => "data"
  | .supports => "supports"
  | .minWidth => "min-"
  | .maxWidth => "max-"
  | .query => "arbitrary-media"
  | .fragment => "arbitrary-selector"

/-- The clause of an `aria-` segment: what its brackets state, or one of the known states. -/
def ariaClause? (segment : Text) : Option Text :=
  match segment.after? "aria-" with
  | none => none
  | some rest =>
      match Bracket.inner? rest with
      | some inside => Attribute.clause? "aria" inside
      | none =>
          if Variant.ariaStates.contains rest then some ("aria-" ++ rest ++ "=\"true\"") else none

def dataClause? (segment : Text) : Option Text :=
  match segment.after? "data-" with
  | none => none
  | some rest => (Bracket.inner? rest).bind (Attribute.clause? "data")

/-- The condition of a `supports-` segment: the text in its brackets, or a bare property name. -/
def supportsCondition? (segment : Text) : Option Text :=
  match segment.after? "supports-" with
  | none => none
  | some rest =>
      match Bracket.inner? rest with
      | some _ => Bracket.filled? rest
      | none => if Attribute.isName rest then some rest else none

/-- The length in the brackets of a segment that starts with `lead`. -/
def length? (lead segment : Text) : Option Text :=
  (segment.after? lead).bind Bracket.filled?

def query? (segment : Text) : Option Text :=
  match (Bracket.inner? segment).map Bracket.content with
  | some (.query text) => if text.isEmpty then none else some text
  | _ => none

/-- The selector fragment that a bracketed segment holds, if it may be spliced. -/
def fragment? (segment : Text) : Option Text :=
  match (Bracket.inner? segment).map Bracket.content with
  | some (.fragment text) => if Fragment.isSpliceable text then some text else none
  | _ => none

/-- The kind and the parameter that a matcher finds in a segment. -/
def reading? (screens : Dictionary Text) (matcher : Matcher) (segment : Text) :
    Option (Variant.Kind × Text) :=
  match matcher with
  | .named => Variant.named.lookup segment
  | .screen => (screens.lookup segment).map (.responsive, ·)
  | .aria => (ariaClause? segment).map (.aria, ·)
  | .data => (dataClause? segment).map (.data, ·)
  | .supports => (supportsCondition? segment).map (.supports, ·)
  | .minWidth => (length? "min-" segment).map (.minWidth, ·)
  | .maxWidth => (length? "max-" segment).map (.maxWidth, ·)
  | .query => (query? segment).map (.arbitraryMedia, ·)
  | .fragment => (fragment? segment).map (.arbitrarySelector, ·)

def variant? (screens : Dictionary Text) (matcher : Matcher) (segment : Text) : Option Variant :=
  (matcher.reading? screens segment).map fun (kind, parameter) => ⟨kind, segment, parameter⟩

end Matcher

end AtomicCss
