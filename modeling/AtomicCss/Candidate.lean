import AtomicCss.Refusal
import AtomicCss.Text.Nesting

/-!
# Candidates

A candidate is a class name as an author writes it: segments separated by colons, of which the
last is the base and the others are variants. A colon separates only where it is live and in no
group, so brackets, parentheses, strings and escapes keep it. A candidate in which a group or a
string is not closed, or closed without having been opened, has no segments at all.
-/

namespace AtomicCss.Candidate

structure Split where
  variants : List Text
  base : Text
  deriving DecidableEq, Repr

namespace Split

/-- The split of a text that has one more character in front, inside its first segment. -/
def push (char : Char) (split : Split) : Split :=
  match split.variants with
  | [] => { split with base := char :: split.base }
  | first :: others => { split with variants := (char :: first) :: others }

def separate (split : Split) : Split :=
  { split with variants := [] :: split.variants }

end Split

/-- Splits the rest of a candidate. Where it cannot be split, the error is `start`, the part of the
candidate that begins with the current segment. -/
def splitFrom (state : Nesting) (start : Text) : Text → Except Text Split
  | [] => if state.isComplete then .ok ⟨[], []⟩ else .error start
  | char :: rest =>
      if state.isStray char then .error start
      else if state.isTopLevel char && char = ':' then (splitFrom .top rest rest).map Split.separate
      else (splitFrom (state.next char) start rest).map (Split.push char)

def split (candidate : Text) : Except Refusal Split :=
  (splitFrom .top candidate candidate).mapError (Refusal.unbalanced candidate)

end AtomicCss.Candidate
