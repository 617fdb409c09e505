import AtomicCss.Text.Blank

/-!
# Words and the texts that hold them

A text spaces words out when it consists of them in order, with at least one blank between any two
and with any blanks at either end. However the blanks are chosen, reading the words of such a text
yields them again, provided that each of them is a word: not empty and without a blank of its own.
-/

namespace AtomicCss.Text

/-- Whether a text can be told from the blanks around it. -/
def IsWord (text : Text) : Prop :=
  text ≠ [] ∧ ∀ char ∈ text, isBlank char = false

/-- `text` consists of `words` and of blanks. There may be blanks in front of each word, and behind
it the text ends or goes on with a blank. -/
inductive SpacesOut : (words : List Text) → (text : Text) → Prop
  | nil {gap : Text} (blank : ∀ char ∈ gap, isBlank char = true) : SpacesOut [] gap
  | cons {gap word rest : Text} {words : List Text} (blank : ∀ char ∈ gap, isBlank char = true)
      (apart : ∀ char ∈ rest.head?, isBlank char = true) (others : SpacesOut words rest) :
      SpacesOut (word :: words) (gap ++ word ++ rest)

/-- A blank ends what stands in front of it, and belongs to no word itself. -/
theorem words_append_cons_of_isBlank {char : Char} (blank : isBlank char = true)
    (front back : Text) : words (front ++ char :: back) = words front ++ words back := by
  simp only [words, List.splitOnP_append_cons front back blank, List.filter_append]

theorem words_cons_of_isBlank {char : Char} (blank : isBlank char = true) (text : Text) :
    words (char :: text) = words text :=
  words_append_cons_of_isBlank blank [] text

theorem words_append_of_isBlank {gap : Text} (blank : ∀ char ∈ gap, isBlank char = true)
    (text : Text) : words (gap ++ text) = words text := by
  induction gap with
  | nil => rfl
  | cons char gap ih =>
      have others : ∀ other ∈ gap, isBlank other = true := fun other member =>
        blank other (List.mem_cons_of_mem char member)
      exact (words_cons_of_isBlank (blank char List.mem_cons_self) _).trans (ih others)

theorem words_of_isWord {word : Text} (isWord : IsWord word) : words word = [word] := by
  have single : word.splitOnP isBlank = [word] := List.splitOnP_eq_singleton isWord.2
  simp [words, single, isWord.1]

/-- A word that ends at a blank, or with the text, is read before the words behind it. -/
theorem words_append_of_isWord {word rest : Text} (isWord : IsWord word)
    (apart : ∀ char ∈ rest.head?, isBlank char = true) :
    words (word ++ rest) = word :: words rest := by
  cases rest with
  | nil =>
      rw [List.append_nil]
      exact words_of_isWord isWord
  | cons char rest =>
      have blank : isBlank char = true := apart char rfl
      calc words (word ++ char :: rest)
          = words word ++ words rest := words_append_cons_of_isBlank blank word rest
        _ = word :: words rest := by rw [words_of_isWord isWord, List.singleton_append]
        _ = word :: words (char :: rest) := by rw [words_cons_of_isBlank blank]

/-- The induction is on how the text was put together: each step takes blanks and one word. -/
theorem SpacesOut.words_eq {tokens : List Text} {text : Text} (spaced : SpacesOut tokens text)
    (areWords : ∀ token ∈ tokens, IsWord token) : text.words = tokens := by
  induction spaced with
  | @nil gap blank =>
      calc words gap = words (gap ++ []) := by rw [List.append_nil]
        _ = [] := words_append_of_isBlank blank []
  | @cons gap word rest tokens blank apart others ih =>
      have isWord : IsWord word := areWords word List.mem_cons_self
      have restWords : rest.words = tokens := by
        apply ih
        intro token member
        exact areWords token (List.mem_cons_of_mem word member)
      calc words (gap ++ word ++ rest)
          = words (gap ++ (word ++ rest)) := by rw [List.append_assoc]
        _ = words (word ++ rest) := words_append_of_isBlank blank _
        _ = word :: words rest := words_append_of_isWord isWord apart
        _ = word :: tokens := by rw [restWords]

end AtomicCss.Text
