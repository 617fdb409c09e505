import AtomicCss.Bracket
import AtomicCss.Proofs.Text.Pending

/-!
# Writing in brackets

Every text can be written in brackets without a space and with all of its own brackets escaped, so
that no reader of candidates takes one of them for the end of the bracket. Only the characters that
unescaping looks at need care, and so do the backslashes in front of them: these are read in pairs
there, and kept as they are everywhere else.
-/

namespace AtomicCss.Bracket

open Text

/-- How a character is written that stands after a row of backslashes, with that row. -/
def writtenAfter (pending : Nat) (char : Char) : Text :=
  if char = ' ' then List.replicate (2 * pending) '\\' ++ ['_']
  else if isEscapable char then List.replicate (2 * pending + 1) '\\' ++ [char]
  else List.replicate pending '\\' ++ [char]

/-- Writes the rest of a text, after `pending` backslashes that are not written yet. -/
def escapeFrom (pending : Nat) : Text → Text
  | [] => List.replicate pending '\\'
  | char :: rest =>
      if char = '\\' then escapeFrom (pending + 1) rest
      else writtenAfter pending char ++ escapeFrom 0 rest

/-- The inside of a bracket that stands for a text. -/
def escape (text : Text) : Text :=
  escapeFrom 0 text

def IsBracket (char : Char) : Prop :=
  char = '[' ∨ char = ']'

instance : DecidablePred IsBracket :=
  fun _ => inferInstanceAs (Decidable (_ ∨ _))

/-- Whether every bracket in a text comes after an odd number of backslashes. -/
def BracketsEscaped (text : Text) : Prop :=
  ∀ mark, IsBracket mark → text.EachAfter EscapesNext mark

/-! ### Reading back -/

theorem unescapeFrom_backslashes (pending count : Nat) (rest : Text) :
    unescapeFrom pending (List.replicate count '\\' ++ rest) =
      unescapeFrom (pending + count) rest := by
  induction count generalizing pending with
  | zero => rfl
  | succ count ih =>
      rw [List.replicate_succ, List.cons_append, unescapeFrom, if_pos rfl, ih]
      congr 1
      omega

theorem unescapeFrom_writtenAfter {char : Char} (notBackslash : char ≠ '\\') (pending : Nat)
    (rest : Text) :
    unescapeFrom 0 (writtenAfter pending char ++ rest) =
      List.replicate pending '\\' ++ char :: unescapeFrom 0 rest := by
  rw [writtenAfter]
  split
  · rename_i space
    subst space
    have halved : 2 * pending / 2 = pending := by omega
    have even : 2 * pending % 2 = 0 := by omega
    rw [List.append_assoc, unescapeFrom_backslashes, Nat.zero_add]
    simp [unescapeFrom, isEscapable, halved, even]
  · split
    · rename_i escapable
      have halved : (2 * pending + 1) / 2 = pending := by omega
      have odd : (2 * pending + 1) % 2 = 1 := by omega
      rw [List.append_assoc, unescapeFrom_backslashes, Nat.zero_add]
      simp [unescapeFrom, notBackslash, escapable, halved, odd]
    · rename_i plain
      rw [List.append_assoc, unescapeFrom_backslashes, Nat.zero_add]
      simp [unescapeFrom, notBackslash, plain]

theorem unescape_escapeFrom (pending : Nat) (text : Text) :
    unescape (escapeFrom pending text) = List.replicate pending '\\' ++ text := by
  rw [unescape]
  induction text generalizing pending with
  | nil =>
      have read := unescapeFrom_backslashes 0 pending []
      rw [List.append_nil, Nat.zero_add] at read
      rw [escapeFrom, read, unescapeFrom, List.append_nil]
  | cons char rest ih =>
      rw [escapeFrom]
      split
      · rename_i backslash
        subst backslash
        rw [ih, List.replicate_succ', List.append_assoc, List.singleton_append]
      · rename_i notBackslash
        rw [unescapeFrom_writtenAfter notBackslash, ih]
        rfl

/-! ### Spaces and brackets -/

theorem space_notMem_writtenAfter (pending : Nat) (char : Char) :
    ' ' ∉ writtenAfter pending char := by
  intro member
  rw [writtenAfter] at member
  split at member
  · simp at member
  · rename_i notSpace
    split at member
    · simp [Ne.symm notSpace] at member
    · simp [Ne.symm notSpace] at member

theorem space_notMem_escapeFrom (pending : Nat) (text : Text) : ' ' ∉ escapeFrom pending text := by
  induction text generalizing pending with
  | nil => simp [escapeFrom]
  | cons char rest ih =>
      rw [escapeFrom]
      split
      · exact ih (pending + 1)
      · intro member
        rcases List.mem_append.mp member with here | later
        · exact space_notMem_writtenAfter pending char here
        · exact ih 0 later

theorem IsBracket.ne_backslash {mark : Char} (isBracket : IsBracket mark) : mark ≠ '\\' := by
  rintro rfl
  exact absurd isBracket (by decide)

theorem eachAfter_backslashes {mark : Char} (isBracket : IsBracket mark) (count : Nat) :
    EachAfter EscapesNext mark (List.replicate count '\\') := by
  apply eachAfter_of_notMem
  intro member
  exact isBracket.ne_backslash (List.eq_of_mem_replicate member)

theorem eachAfter_writtenAfter {mark : Char} (isBracket : IsBracket mark) (pending : Nat)
    (char : Char) : EachAfter EscapesNext mark (writtenAfter pending char) := by
  have row := fun count => eachAfter_backslashes isBracket count
  rw [writtenAfter]
  split
  · rw [eachAfter_append_singleton_iff]
    refine ⟨row _, ?_⟩
    rintro rfl
    exact absurd isBracket (by decide)
  · split
    · rw [eachAfter_append_singleton_iff]
      refine ⟨row _, fun _ => ?_⟩
      rw [EscapesNext, pending_replicate]
      omega
    · rename_i plain
      rw [eachAfter_append_singleton_iff]
      refine ⟨row _, ?_⟩
      rintro rfl
      rcases isBracket with rfl | rfl
      · exact absurd rfl plain
      · exact absurd rfl plain

theorem pending_writtenAfter {char : Char} (notBackslash : char ≠ '\\') (count : Nat) :
    (writtenAfter count char).pending = 0 := by
  rw [writtenAfter]
  split
  · exact pending_append_of_ne (by decide) _
  · split
    · exact pending_append_of_ne notBackslash _
    · exact pending_append_of_ne notBackslash _

theorem bracketsEscaped_escapeFrom (pending : Nat) (text : Text) :
    BracketsEscaped (escapeFrom pending text) := by
  intro mark isBracket
  induction text generalizing pending with
  | nil => exact eachAfter_backslashes isBracket pending
  | cons char rest ih =>
      rw [escapeFrom]
      split
      · exact ih (pending + 1)
      · rename_i notBackslash
        exact (eachAfter_writtenAfter isBracket pending char).append
          (pending_writtenAfter notBackslash pending) (ih 0)

/-! ### The spelling -/

theorem escapeFrom_backslashes (pending count : Nat) (rest : Text) :
    escapeFrom pending (List.replicate count '\\' ++ rest) = escapeFrom (pending + count) rest := by
  induction count generalizing pending with
  | zero => rfl
  | succ count ih =>
      rw [List.replicate_succ, List.cons_append, escapeFrom, if_pos rfl, ih]
      congr 1
      omega

theorem escapeFrom_append {pending : Nat} {front : Text}
    (noPending : Text.pending (List.replicate pending '\\' ++ front) = 0) (back : Text) :
    escapeFrom pending (front ++ back) = escapeFrom pending front ++ escape back := by
  -- The backslashes that are not written yet count as a part of the front.
  induction front generalizing pending with
  | nil =>
      rw [List.append_nil, pending_replicate] at noPending
      subst noPending
      rfl
  | cons char rest ih =>
      rw [List.cons_append, escapeFrom, escapeFrom]
      split
      · rename_i backslash
        subst backslash
        apply ih
        rw [List.replicate_succ', List.append_assoc]
        exact noPending
      · rename_i notBackslash
        rw [List.append_cons, pending_append (pending_append_of_ne notBackslash _)] at noPending
        rw [@ih 0 noPending, List.append_assoc]

/-- Where no backslash is pending, what follows is written as if it stood alone. -/
theorem escape_append {front : Text} (noPending : front.pending = 0) (back : Text) :
    escape (front ++ back) = escape front ++ escape back :=
  @escapeFrom_append 0 front noPending back

theorem escape_backslashes (count : Nat) :
    escape (List.replicate count '\\') = List.replicate count '\\' := by
  have row := escapeFrom_backslashes 0 count []
  rw [List.append_nil, Nat.zero_add] at row
  rw [escape, row, escapeFrom]

theorem escape_row {char : Char} (notBackslash : char ≠ '\\') (count : Nat) (back : Text) :
    escape (List.replicate count '\\' ++ char :: back) =
      writtenAfter count char ++ escape back := by
  rw [escape, escapeFrom_backslashes, Nat.zero_add, escapeFrom, if_neg notBackslash]
  rfl

/-- Every text is what the inside of a bracket stands for that holds no space and no bare bracket.
It doubles the backslashes before a space, which it writes as an underscore, and adds one more
before an underscore or a bracket; everything else it copies. -/
theorem unescape_escape (text : Text) :
    unescape (escape text) = text ∧
    ' ' ∉ escape text ∧
    BracketsEscaped (escape text) ∧
    (∀ (front : Text) (count : Nat), front.pending = 0 →
      text = front ++ List.replicate count '\\' →
        escape text = escape front ++ List.replicate count '\\') ∧
    (∀ (front : Text) (count : Nat) (char : Char) (back : Text), front.pending = 0 →
      char ≠ '\\' → text = front ++ (List.replicate count '\\' ++ char :: back) →
        escape text = escape front ++ (writtenAfter count char ++ escape back)) := by
  refine ⟨unescape_escapeFrom 0 text, space_notMem_escapeFrom 0 text,
    bracketsEscaped_escapeFrom 0 text, ?_, ?_⟩
  · rintro front count noPending rfl
    rw [escape_append noPending, escape_backslashes]
  · rintro front count char back noPending notBackslash rfl
    rw [escape_append noPending, escape_row notBackslash]

/-- One backslash before a space, and two at the end, which stay two. -/
theorem unescape_escape_trailingRow :
    escape "\\ [a_\\\\" = "\\\\_\\[a\\_\\\\" ∧
    unescape "\\\\_\\[a\\_\\\\" = "\\ [a_\\\\" ∧
    escape "\\ [a_\\\\" = escape "\\ [a_" ++ ['\\', '\\'] ∧
    escape "\\ [a_\\\\" = "\\\\_" ++ escape "[a_\\\\" := by
  have written : escape "\\ [a_\\\\" = "\\\\_\\[a\\_\\\\" := rfl
  rcases unescape_escape "\\ [a_\\\\" with ⟨readsBack, -, -, atEnd, atRow⟩
  rw [written] at readsBack
  exact ⟨written, readsBack, atEnd "\\ [a_" 2 rfl rfl, atRow [] 1 ' ' "[a_\\\\" rfl (by decide) rfl⟩

end AtomicCss.Bracket
