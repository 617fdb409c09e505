import AtomicCss.Fragment
import AtomicCss.Proofs.Text.Pending
import AtomicCss.Proofs.Text.Scan

/-!
# Fragments that may be spliced

A fragment may become part of a selector if it has a slot, if it cannot end the rule or start
another one, and if no slot comes directly after a name, for the class to be filled in would then
be read as a part of that name.

`isSpliceable` looks at the live characters alone. It takes the nearest live character before a slot
for the one that stands directly before it, and knows name characters in ASCII only. Therefore it
does not notice the name if the slot comes after an escape or after a name character beyond ASCII,
and it refuses a slot after a string if there is a name before the string. Everywhere else it
accepts the fragments that may be spliced.
-/

namespace AtomicCss

theorem Quoting.exists_eq_append_of_live {state : Quoting} {text left right : Text} {char : Char}
    (row : state.live text = left ++ char :: right) :
    ∃ front back, text = front ++ char :: back ∧ state.live front = left ∧
      (state.readAll front).isLive char = true := by
  induction text generalizing state left with
  | nil => simp [live] at row
  | cons first rest ih =>
      simp only [live] at row
      split at row
      · rename_i firstLive
        cases left with
        | nil =>
            cases row
            exact ⟨[], rest, rfl, rfl, firstLive⟩
        | cons other left =>
            simp only [List.cons_append, List.cons.injEq] at row
            rcases row with ⟨rfl, row⟩
            rcases ih row with ⟨front, back, rfl, rfl, charLive⟩
            exact ⟨first :: front, back, rfl, by simp [live, firstLive], charLive⟩
      · rename_i firstInert
        rcases ih row with ⟨front, back, rfl, rfl, charLive⟩
        exact ⟨first :: front, back, rfl, by simp [live, firstInert], charLive⟩

namespace Text

/-- Whether a text has a last character for which `Holds`, in the state in which it is read. -/
def EndsIn (Holds : Quoting → Char → Prop) (text : Text) : Prop :=
  ∃ init last, text = init ++ [last] ∧ Holds (Quoting.outside.readAll init) last

variable {Holds : Quoting → Char → Prop}

theorem not_endsIn_nil : ¬EndsIn Holds [] := by
  rintro ⟨init, last, splits, -⟩
  simp at splits

theorem endsIn_append_singleton {init : Text} {last : Char} :
    EndsIn Holds (init ++ [last]) ↔ Holds (Quoting.outside.readAll init) last := by
  constructor
  · rintro ⟨otherInit, otherLast, splits, holds⟩
    rcases List.append_inj' splits rfl with ⟨rfl, sameLast⟩
    cases sameLast
    exact holds
  · intro holds
    exact ⟨init, last, rfl, holds⟩

instance [∀ state char, Decidable (Holds state char)] (text : Text) : Decidable (EndsIn Holds text) :=
  decidable_of_iff
    (text.getLast?.any (fun last => Holds (Quoting.outside.readAll text.dropLast) last) = true) (by
      rcases List.eq_nil_or_concat' text with rfl | ⟨init, last, rfl⟩
      · simp [not_endsIn_nil]
      · simp [endsIn_append_singleton])

end Text

namespace Fragment

open Quoting Text

/-- Whether an `&` after this text is a slot. -/
def SlotAfter (front : Text) : Prop :=
  (outside.readAll front).isLive slot = true

/-- Whether the nearest live character at the end of a text is an ASCII name character, whatever is
quoted or escaped after it. -/
def Glues (front : Text) : Prop :=
  front.live.getLast?.any isNameChar = true

/-- Whether a text ends in a name: in an escaped character, or in a live name character, be it of
ASCII or not. -/
def EndsName : Text → Prop :=
  EndsIn fun state last =>
    state.escaped = true ∨
      state.isLive last = true ∧ (isNameChar last = true ∨ 128 ≤ last.toNat)

/-- Whether a text ends in an escaped character or in a live one beyond ASCII. -/
def EndsUnnoticed : Text → Prop :=
  EndsIn fun state last =>
    state.escaped = true ∨ state.isLive last = true ∧ 128 ≤ last.toNat

/-- Whether a text ends in the closing quote of a string. -/
def EndsString : Text → Prop :=
  EndsIn fun state last => state.escaped = false ∧ state.quote = some last

/-- Whether a fragment has a slot, no rule punctuation, and no slot that comes directly after a
name. -/
structure MaySplice (fragment : Text) : Prop where
  hasSlot : slot ∈ fragment.live
  noPunctuation : ∀ char ∈ fragment.live, isRulePunctuation char = false
  startsCompound : fragment.EachAfter (fun front => SlotAfter front → ¬EndsName front) slot

instance : DecidablePred SlotAfter :=
  fun _ => inferInstanceAs (Decidable (_ = _))

instance : DecidablePred EndsName :=
  fun front => inferInstanceAs (Decidable (EndsIn _ front))

instance (fragment : Text) : Decidable (MaySplice fragment) :=
  decidable_of_iff
    (slot ∈ fragment.live ∧ fragment.live.all (!isRulePunctuation ·) = true ∧
      fragment.EachAfter (fun front => SlotAfter front → ¬EndsName front) slot)
    (by
      simp only [List.all_eq_true, Bool.not_eq_true']
      exact ⟨fun all => ⟨all.1, all.2.1, all.2.2⟩,
        fun may => ⟨may.hasSlot, may.noPunctuation, may.startsCompound⟩⟩)

/-! ### Slots that are glued to a name -/

theorem hasGluedSlot_iff {row : Text} :
    hasGluedSlot row = true ↔
      ∃ left first right, row = left ++ [first] ++ slot :: right ∧ isNameChar first = true := by
  induction row with
  | nil => simp [hasGluedSlot]
  | cons first rest ih =>
      cases rest with
      | nil =>
          simp only [hasGluedSlot, Bool.false_eq_true, false_iff]
          rintro ⟨left, other, right, splits, -⟩
          have lengths := congrArg List.length splits
          simp at lengths
          omega
      | cons second rest =>
          simp only [hasGluedSlot, Bool.or_eq_true, Bool.and_eq_true, decide_eq_true_eq, ih]
          constructor
          · rintro (⟨isName, rfl⟩ | ⟨left, other, right, splits, isName⟩)
            · exact ⟨[], first, rest, rfl, isName⟩
            · exact ⟨first :: left, other, right, by rw [splits]; rfl, isName⟩
          · rintro ⟨left, other, right, splits, isName⟩
            cases left with
            | nil =>
                simp only [List.nil_append, List.singleton_append, List.cons.injEq] at splits
                rcases splits with ⟨rfl, rfl, -⟩
                exact .inl ⟨isName, rfl⟩
            | cons outer left =>
                simp only [List.cons_append, List.cons.injEq] at splits
                exact .inr ⟨left, other, right, splits.2, isName⟩

/-- A slot is glued to a name in the row of live characters if the text before it glues. -/
theorem hasGluedSlot_live_eq_false_iff {fragment : Text} :
    hasGluedSlot fragment.live = false ↔
      fragment.EachAfter (fun front => SlotAfter front → ¬Glues front) slot := by
  rw [← Bool.not_eq_true, hasGluedSlot_iff]
  constructor
  · rintro notGlued front back rfl isSlot glues
    rw [Glues, Option.any_eq_true] at glues
    rcases glues with ⟨first, last, isName⟩
    rw [List.getLast?_eq_some_iff] at last
    rcases last with ⟨left, frontLive⟩
    refine notGlued ⟨left, first, ((outside.readAll front).next slot).live back, ?_, isName⟩
    rw [← frontLive, Text.live_append]
    simp only [Quoting.live, show (outside.readAll front).isLive slot = true from isSlot, if_true]
  · rintro each ⟨left, first, right, row, isName⟩
    rcases exists_eq_append_of_live row with ⟨front, back, rfl, frontLive, isSlot⟩
    apply each front back rfl isSlot
    rw [Glues, Text.live, frontLive]
    simp [isName]

/-- Which fragments are accepted. -/
theorem isSpliceable_iff_glues {fragment : Text} :
    isSpliceable fragment = true ↔
      slot ∈ fragment.live ∧ (∀ char ∈ fragment.live, isRulePunctuation char = false) ∧
        fragment.EachAfter (fun front => SlotAfter front → ¬Glues front) slot := by
  rw [isSpliceable, Bool.and_eq_true, Bool.and_eq_true, hasSlot, List.contains_iff_mem,
    Bool.not_eq_true', Bool.not_eq_true', hasGluedSlot_live_eq_false_iff, List.any_eq_false,
    and_assoc]
  simp only [Bool.not_eq_true]

/-! ### What stands directly before a slot -/

variable {front : Text}

theorem EndsUnnoticed.endsName (unnoticed : EndsUnnoticed front) : EndsName front := by
  rcases unnoticed with ⟨init, last, splits, escaped | ⟨live, beyond⟩⟩
  · exact ⟨init, last, splits, .inl escaped⟩
  · exact ⟨init, last, splits, .inr ⟨live, .inr beyond⟩⟩

theorem glues_append_singleton {init : Text} {last : Char}
    (live : (outside.readAll init).isLive last = true) :
    Glues (init ++ [last]) ↔ isNameChar last = true := by
  have row : (init ++ [last]).live = init.live ++ [last] := by
    rw [Text.live_append]
    simp [Quoting.live, live]
  rw [Glues, row]
  simp

/-- A name before a slot is noticed, unless it ends in an escape or beyond ASCII. -/
theorem EndsName.glues_or_endsUnnoticed (endsName : EndsName front) :
    Glues front ∨ EndsUnnoticed front := by
  rcases endsName with ⟨init, last, rfl, escaped | ⟨live, isName | beyond⟩⟩
  · exact .inr ⟨init, last, rfl, .inl escaped⟩
  · exact .inl ((glues_append_singleton live).mpr isName)
  · exact .inr ⟨init, last, rfl, .inr ⟨live, beyond⟩⟩

/-- Where a string ends, or the text before it goes on, the next `&` is a slot; so directly before a
slot stands a live character, an escaped one, or the quote that ends a string. -/
theorem SlotAfter.last {init : Text} {last : Char} (isSlot : SlotAfter (init ++ [last])) :
    (outside.readAll init).escaped = true ∨ (outside.readAll init).isLive last = true ∨
      (outside.readAll init).escaped = false ∧ (outside.readAll init).quote = some last := by
  have ends := eq_outside_of_isLive isSlot
  rw [readAll_append] at ends
  change (outside.readAll init).next last = outside at ends
  generalize outside.readAll init = state at ends ⊢
  rcases state with ⟨quote, escaped⟩
  cases escaped with
  | true => exact .inl rfl
  | false =>
      refine .inr ?_
      by_cases backslash : last = '\\'
      · subst backslash
        simp [next, outside] at ends
      · cases quote with
        | some quote =>
            right
            by_cases closes : last = quote
            · exact ⟨rfl, by rw [closes]⟩
            · simp [next, backslash, closes, outside] at ends
        | none =>
            left
            by_cases opens : isQuote last = true
            · simp [next, backslash, opens, outside] at ends
            · simp [isLive, backslash, opens]

/-- A slot is glued to a name that stands directly before it, or before a string. -/
theorem Glues.endsName_or_endsString (glues : Glues front) (isSlot : SlotAfter front) :
    EndsName front ∨ EndsString front := by
  rcases List.eq_nil_or_concat' front with rfl | ⟨init, last, rfl⟩
  · cases glues
  · rcases isSlot.last with escaped | live | closes
    · exact .inl ⟨init, last, rfl, .inl escaped⟩
    · exact .inl ⟨init, last, rfl, .inr ⟨live, .inl ((glues_append_singleton live).mp glues)⟩⟩
    · exact .inr ⟨init, last, rfl, closes⟩

/-- A fragment is accepted if it has a slot and no rule punctuation and if the nearest live
character before each slot is no ASCII name character. This is right, unless a fragment is accepted
in which a slot comes directly after an escape or a live character beyond ASCII, or one is refused
that may be spliced because a slot comes directly after a string with a name before it. -/
theorem isSpliceable_iff (fragment : Text) :
    (isSpliceable fragment = true ↔
      slot ∈ fragment.live ∧ (∀ char ∈ fragment.live, isRulePunctuation char = false) ∧
        fragment.EachAfter (fun front => SlotAfter front → ¬Glues front) slot) ∧
    ((isSpliceable fragment = true ↔ MaySplice fragment) ↔
      (isSpliceable fragment = true →
        fragment.EachAfter (fun front => SlotAfter front → ¬EndsUnnoticed front) slot) ∧
      (MaySplice fragment →
        fragment.EachAfter (fun front => SlotAfter front → EndsString front → ¬Glues front)
          slot)) := by
  refine ⟨isSpliceable_iff_glues, fun right => ⟨?_, ?_⟩, ?_⟩
  · intro accepted front back splits isSlot unnoticed
    exact (right.mp accepted).startsCompound front back splits isSlot unnoticed.endsName
  · intro may front back splits isSlot _
    exact (isSpliceable_iff_glues.mp (right.mpr may)).2.2 front back splits isSlot
  · rintro ⟨noneUnnoticed, noneMistaken⟩
    constructor
    · intro accepted
      rcases isSpliceable_iff_glues.mp accepted with ⟨slotted, noPunctuation, noneGlues⟩
      refine ⟨slotted, noPunctuation, fun front back splits isSlot endsName => ?_⟩
      rcases endsName.glues_or_endsUnnoticed with glues | unnoticed
      · exact noneGlues front back splits isSlot glues
      · exact noneUnnoticed accepted front back splits isSlot unnoticed
    · intro may
      rw [isSpliceable_iff_glues]
      refine ⟨may.hasSlot, may.noPunctuation, fun front back splits isSlot glues => ?_⟩
      rcases glues.endsName_or_endsString isSlot with endsName | endsString
      · exact may.startsCompound front back splits isSlot endsName
      · exact noneMistaken may front back splits isSlot endsString glues

/-- A name beyond ASCII and an escaped name are overlooked, and a string is not seen to end a
name. -/
theorem isSpliceable_not_maySplice :
    isSpliceable "é&" = true ∧ ¬MaySplice "é&" ∧
    isSpliceable ".\\:&" = true ∧ ¬MaySplice ".\\:&" ∧
    isSpliceable "a''&" = false ∧ MaySplice "a''&" := by
  decide +kernel

end Fragment

end AtomicCss
