import AtomicCss.Proofs.Attribute.Clauses
import AtomicCss.Proofs.Candidate.Segments
import AtomicCss.Proofs.Fragment.Reading
import AtomicCss.Proofs.Fragment.Spacing

/-!
# Contained parameters

A selector variant that is written without a backslash has a contained parameter, in each of the
forms that selector variants have. With a backslash this can fail: a literal may end early, and a
trimmed fragment may end in a backslash. Clauses without a backslash are clear of every punctuation,
because the only author-written text in them stands in a string.
-/

namespace AtomicCss

theorem Bracket.isClosed_of_content {inside fragment : Text} (noBackslash : '\\' ∉ inside)
    (closed : inside.isClosed = true) (holds : content inside = .fragment fragment) :
    fragment.isClosed = true := by
  have trimmed : (unescape inside).trim.isClosed = true := by
    rw [Text.isClosed_trim_iff (by rw [isClosed_unescape, closed])]
    apply Quoting.escaped_readAll rfl
    exact fun member => noBackslash_unescape noBackslash (Text.mem_of_mem_trim member)
  rw [content_eq_fragment holds, Fragment.isClosed_spaceCombinators, trimmed]

namespace Variant

theorem isContained_of_mem_named {word parameter : Text} {kind : Kind}
    (listed : (word, kind, parameter) ∈ named) : parameter.isContained = true := by
  have all : named.all (fun entry => entry.2.2.isContained) = true := by decide +kernel
  exact List.all_eq_true.mp all _ listed

theorem SelectorForm.isContained {segment parameter : Text} {kind : Kind}
    (form : SelectorForm segment kind parameter) (whole : Candidate.isSealed segment = true)
    (noBackslash : '\\' ∉ segment) : parameter.isContained = true := by
  have clear {family : Text} (belongs : kind.family? = some family) :
      parameter.isContained = true := by
    rw [Text.isContained_iff_isClear]
    exact form.isClear isPunctuation_isBlockPunctuation belongs noBackslash
  cases form with
  | word listed => exact isContained_of_mem_named listed
  | state known => exact clear rfl
  | clause belongs => exact clear belongs
  | fragment written holds spliceable =>
      subst written
      simp only [List.mem_append, List.mem_cons, not_or] at noBackslash
      have closed := Candidate.isClosed_inside noBackslash.1.2 whole
      apply Fragment.isContained_of_isSpliceable spliceable
      exact Bracket.isClosed_of_content noBackslash.1.2 closed holds

end Variant

end AtomicCss
