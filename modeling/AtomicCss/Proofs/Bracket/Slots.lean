import AtomicCss.Proofs.Bracket.Reading
import AtomicCss.Proofs.Fragment.Spacing

/-!
# The slots that an author writes

The inside of a bracket is unescaped, trimmed and spaced before its slots are filled. None of this
adds a slot or takes one away: the live `&` of what the author has written are the slots of the
fragment. A bracket therefore holds a fragment exactly if its inside has a live `&`, unless it
starts like a media query.
-/

namespace AtomicCss.Bracket

open Quoting Text

/-- Whether a word that stands before `rest` ends there, as far as media queries are concerned. -/
def EndsWord (rest : Text) : Prop :=
  rest = [] ∨ rest.head? = some ' ' ∨ rest.head? = some '('

/-- Whether a text is the word `@media` with `rest` after it. -/
structure IsQuery (text rest : Text) : Prop where
  starts : text = "@media" ++ rest
  endsWord : EndsWord rest

theorem mediaQuery?_eq_some_iff {text query : Text} :
    mediaQuery? text = some query ↔ ∃ rest, IsQuery text rest ∧ query = rest.trim := by
  constructor
  · intro found
    rw [mediaQuery?] at found
    split at found
    · rename_i starts
      cases found
      exact ⟨[], ⟨after?_eq_some_iff.mp starts, .inl rfl⟩, rfl⟩
    · rename_i char rest starts
      split at found
      · rename_i ends
        cases found
        refine ⟨char :: rest, ⟨after?_eq_some_iff.mp starts, .inr ?_⟩, rfl⟩
        simpa using ends
      · cases found
    · cases found
  · rintro ⟨rest, ⟨starts, ends⟩, rfl⟩
    have follows := after?_eq_some_iff.mpr starts
    rw [mediaQuery?, follows]
    cases rest with
    | nil => rfl
    | cons char rest =>
        have charEnds : (char = ' ' || char = '(') = true := by simpa [EndsWord] using ends
        exact if_pos charEnds

theorem isPunctuation_slot : IsPunctuation (· == Fragment.slot) := by
  intro char written
  rw [beq_eq_false_iff_ne]
  rintro rfl
  exact absurd written (by decide)

/-- Unescaping and trimming keep the live `&`. -/
theorem count_slot_trim_unescape (inside : Text) :
    (unescape inside).trim.live.count Fragment.slot = inside.live.count Fragment.slot := by
  have unaffected : ∀ char, isAffected char = true → (char == Fragment.slot) = false := by
    intro char affected
    rw [beq_eq_false_iff_ne]
    rintro rfl
    exact absurd affected (by decide)
  have unescaped := congrArg Prod.snd (scan_unescape unaffected inside)
  rw [List.count_eq_length_filter, List.count_eq_length_filter, marks_trim isPunctuation_slot]
  exact congrArg List.length unescaped

theorem count_slot_spaceCombinators (fragment : Text) :
    (Fragment.spaceCombinators fragment).live.count Fragment.slot =
      fragment.live.count Fragment.slot := by
  have spaced := congrArg Prod.snd
    (@Fragment.scan_spaceCombinators (· == Fragment.slot) rfl fragment)
  rw [List.count_eq_length_filter, List.count_eq_length_filter]
  exact congrArg List.length spaced

theorem content_of_isQuery {inside rest : Text} (query : IsQuery (unescape inside).trim rest) :
    content inside = .query rest.trim := by
  have read := mediaQuery?_eq_some_iff.mpr ⟨rest, query, rfl⟩
  rw [content, read]

theorem content_of_not_isQuery {inside : Text}
    (notQuery : ∀ rest, ¬IsQuery (unescape inside).trim rest) :
    content inside =
      if Fragment.hasSlot (unescape inside).trim then
        .fragment (Fragment.spaceCombinators (unescape inside).trim)
      else .value (unescape inside) := by
  have unread : mediaQuery? (unescape inside).trim = none := by
    cases read : mediaQuery? (unescape inside).trim with
    | none => rfl
    | some query =>
        rcases mediaQuery?_eq_some_iff.mp read with ⟨rest, isQuery, -⟩
        exact absurd isQuery (notQuery rest)
  rw [content, unread]

/-- A reader passes the inside of a bracket and the text that it stands for alike, up to the
characters that unescaping writes otherwise. A bracket that starts like a media query holds one;
any other holds a fragment exactly if its inside has a live `&`, and then the fragment has as many
of them. -/
theorem content_slots (inside : Text) :
    outside.readAll (unescape inside) = outside.readAll inside ∧
    (unescape inside).live.filter (!isAffected ·) = inside.live.filter (!isAffected ·) ∧
    (∀ rest, IsQuery (unescape inside).trim rest → content inside = .query rest.trim) ∧
    ((∀ rest, ¬IsQuery (unescape inside).trim rest) →
      ((∃ fragment, content inside = .fragment fragment) ↔ Fragment.slot ∈ inside.live) ∧
      ∀ fragment, content inside = .fragment fragment →
        fragment.live.count Fragment.slot = inside.live.count Fragment.slot) := by
  have scanned := @scan_unescape (!isAffected ·) (by simp) inside
  refine ⟨readAll_unescape inside, congrArg Prod.snd scanned, fun rest => content_of_isQuery,
    fun notQuery => ⟨?_, fun fragment holds => ?_⟩⟩
  · rw [content_of_not_isQuery notQuery, ← List.count_pos_iff, ← count_slot_trim_unescape,
      List.count_pos_iff, ← List.contains_iff_mem]
    change _ ↔ Fragment.hasSlot (unescape inside).trim = true
    cases Fragment.hasSlot (unescape inside).trim <;> simp
  · rw [content_eq_fragment holds, count_slot_spaceCombinators, count_slot_trim_unescape]

/-- Neither a quoted nor an escaped `&` becomes a slot, and an escaped backslash escapes none. -/
theorem content_slots_escaped :
    content "@media_(width>40em)" = .query "(width>40em)" ∧
    content "&\\_a>\\\\&['&\\']\\&'" = .fragment "&_a > \\\\&['&\\']\\&'" ∧
    Fragment.slot ∈ live "&\\_a>\\\\&['&\\']\\&'" ∧
    (live "&_a > \\\\&['&\\']\\&'").count Fragment.slot = 2 := by
  have isQuery : IsQuery (unescape "@media_(width>40em)").trim " (width>40em)" :=
    ⟨by decide, .inr (.inl rfl)⟩
  have holds : content "&\\_a>\\\\&['&\\']\\&'" =
      .fragment "&_a > \\\\&['&\\']\\&'" := by decide
  have notQuery : ∀ rest, ¬IsQuery (unescape "&\\_a>\\\\&['&\\']\\&'").trim rest := by
    intro rest query
    have sameFirst : some '&' = some '@' := congrArg List.head? query.starts
    exact absurd sameFirst (by decide)
  rcases (content_slots "&\\_a>\\\\&['&\\']\\&'").2.2.2 notQuery with ⟨holdsFragment, keeps⟩
  exact ⟨(content_slots "@media_(width>40em)").2.2.1 _ isQuery, holds,
    holdsFragment.mp ⟨_, holds⟩, keeps _ holds⟩

end AtomicCss.Bracket
