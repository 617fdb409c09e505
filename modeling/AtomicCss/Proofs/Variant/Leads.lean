import AtomicCss.Proofs.Dictionary
import AtomicCss.Proofs.FirstReading
import AtomicCss.Proofs.Variant.Forms
import AtomicCss.Theme.Settings

/-!
# Which matcher reads a segment

Words and screens are known by their names, and every other form of segment by how it starts. No
word starts like a form, and no two forms start alike, apart from queries and fragments: these share
the opening bracket, but what stands in a bracket is never both. So only one matcher can read a
segment that is no screen. The order in which the matchers are asked therefore matters for those
screens alone that are named like a segment of another form.
-/

namespace AtomicCss

namespace Matcher

/-- The beginnings by which the forms of segments are told apart. -/
def leads : List Text :=
  ["aria-", "data-", "supports-", "min-", "max-", "["]

/-- How all segments start that a matcher reads, unless it knows them by name. -/
def lead? : Matcher → Option Text
  | .named | .screen => none
  | .aria => some "aria-"
  | .data => some "data-"
  | .supports => some "supports-"
  | .minWidth => some "min-"
  | .maxWidth => some "max-"
  | .query | .fragment => some "["

/-- Whether no screen is named like a word or starts like another form of segment. -/
def AreApart (screens : Dictionary Text) : Prop :=
  ∀ entry ∈ screens, Variant.named.lookup entry.1 = none ∧ ∀ lead ∈ leads, ¬lead <+: entry.1

instance (screens : Dictionary Text) : Decidable (AreApart screens) :=
  inferInstanceAs (Decidable (∀ entry ∈ screens, _ ∧ _))

variable {screens : Dictionary Text} {segment : Text}

theorem mem_all (matcher : Matcher) : matcher ∈ all := by
  cases matcher <;> decide

theorem mem_leads {matcher : Matcher} {lead : Text} (known : matcher.lead? = some lead) :
    lead ∈ leads := by
  have listed : ∀ matcher ∈ all, ∀ lead ∈ matcher.lead?, lead ∈ leads := by decide
  exact listed matcher (mem_all matcher) lead known

/-- A segment starts like one form at most. -/
theorem eq_of_leads {left right : Text} (leftMem : left ∈ leads) (rightMem : right ∈ leads)
    (leftStarts : left <+: segment) (rightStarts : right <+: segment) : left = right := by
  have apart : ∀ left ∈ leads, ∀ right ∈ leads, left <+: right → left = right := by decide
  rcases List.prefix_or_prefix_of_prefix leftStarts rightStarts with shorter | shorter
  · exact apart left leftMem right rightMem shorter
  · exact (apart right rightMem left leftMem shorter).symm

/-- No word of the vocabulary looks like another form of segment. -/
theorem lookup_named_eq_none {lead : Text} (member : lead ∈ leads) (starts : lead <+: segment) :
    Variant.named.lookup segment = none := by
  have words : ∀ entry ∈ Variant.named, ∀ lead ∈ leads, ¬lead <+: entry.1 := by
    decide +kernel
  rw [Option.eq_none_iff_forall_ne_some]
  intro found listed
  exact words _ (Dictionary.mem_of_lookup_eq_some listed) lead member starts

theorem reading?_eq_none {matcher : Matcher} {lead : Text} (known : matcher.lead? = some lead)
    (startsOtherwise : ¬lead <+: segment) : matcher.reading? screens segment = none := by
  have noRest := Text.after?_eq_none_iff.mpr startsOtherwise
  cases matcher with
  | named | screen => cases known
  | aria =>
      cases known
      rw [reading?, ariaClause?, noRest]
      rfl
  | data =>
      cases known
      rw [reading?, dataClause?, noRest]
      rfl
  | supports =>
      cases known
      rw [reading?, supportsCondition?, noRest]
      rfl
  | minWidth | maxWidth =>
      cases known
      rw [reading?, length?, noRest]
      rfl
  | query =>
      cases known
      rw [reading?, query?, Bracket.inner?_eq_none startsOtherwise]
      rfl
  | fragment =>
      cases known
      rw [reading?, fragment?, Bracket.inner?_eq_none startsOtherwise]
      rfl

/-- What a bracket holds is not both a query and a fragment. -/
theorem query?_eq_none_or_fragment?_eq_none (segment : Text) :
    query? segment = none ∨ fragment? segment = none := by
  rw [query?, fragment?]
  cases (Bracket.inner? segment).map Bracket.content with
  | none => exact .inl rfl
  | some content =>
      cases content with
      | query text => exact .inr rfl
      | fragment text => exact .inl rfl
      | value text => exact .inl rfl

/-! ### Segments that are no screens -/

section NoScreen

variable (notScreen : screens.lookup segment = none)

include notScreen

theorem ne_screen {matcher : Matcher} (reads : (matcher.reading? screens segment).isSome = true) :
    matcher ≠ .screen := by
  rintro rfl
  simp [reading?, notScreen] at reads

/-- How a segment starts decides how the segments of its matcher start. -/
theorem lead?_eq_find? {matcher : Matcher}
    (reads : (matcher.reading? screens segment).isSome = true) :
    matcher.lead? = leads.find? (· <+: segment) := by
  cases known : matcher.lead? with
  | none =>
      have isNamed : matcher = .named := by
        have unknown : ∀ matcher ∈ all, matcher.lead? = none → matcher ≠ .screen →
            matcher = .named := by decide
        exact unknown matcher (mem_all matcher) known (ne_screen notScreen reads)
      subst isNamed
      rw [eq_comm, List.find?_eq_none]
      intro lead member starts
      rw [decide_eq_true_eq] at starts
      rw [reading?, lookup_named_eq_none member starts] at reads
      cases reads
  | some lead =>
      have member := mem_leads known
      have starts : lead <+: segment := by
        apply Decidable.of_not_not
        intro startsOtherwise
        rw [reading?_eq_none known startsOtherwise] at reads
        cases reads
      cases found : leads.find? (· <+: segment) with
      | none =>
          rw [List.find?_eq_none] at found
          exact absurd (decide_eq_true starts) (found lead member)
      | some other =>
          have otherStarts := List.find?_some found
          rw [decide_eq_true_eq] at otherStarts
          rw [eq_of_leads member (List.mem_of_find?_eq_some found) starts otherStarts]

/-- Only one matcher reads a segment that is no screen. -/
theorem eq_of_reads {first second : Matcher}
    (firstReads : (first.reading? screens segment).isSome = true)
    (secondReads : (second.reading? screens segment).isSome = true) : first = second := by
  have told : ∀ first ∈ all, ∀ second ∈ all, first ≠ .screen → second ≠ .screen →
      first.lead? = second.lead? → first = second ∨
        (first = .query ∧ second = .fragment) ∨ (first = .fragment ∧ second = .query) := by
    decide
  have sameLead := (lead?_eq_find? notScreen firstReads).trans
    (lead?_eq_find? notScreen secondReads).symm
  rcases told first (mem_all first) second (mem_all second) (ne_screen notScreen firstReads)
    (ne_screen notScreen secondReads) sameLead with same | ⟨rfl, rfl⟩ | ⟨rfl, rfl⟩
  · exact same
  · rcases query?_eq_none_or_fragment?_eq_none segment with noQuery | noFragment
    · simp [reading?, noQuery] at firstReads
    · simp [reading?, noFragment] at secondReads
  · rcases query?_eq_none_or_fragment?_eq_none segment with noQuery | noFragment
    · simp [reading?, noQuery] at secondReads
    · simp [reading?, noFragment] at firstReads

end NoScreen

/-! ### Screens of their own -/

/-- A screen with a name of its own is read as nothing else. -/
theorem eq_screen_of_reads (apart : AreApart screens) {width : Text}
    (isScreen : screens.lookup segment = some width) {matcher : Matcher}
    (reads : (matcher.reading? screens segment).isSome = true) : matcher = .screen := by
  rcases apart _ (Dictionary.mem_of_lookup_eq_some isScreen) with ⟨notNamed, noLead⟩
  cases known : matcher.lead? with
  | none =>
      have unknown : ∀ matcher ∈ all, matcher.lead? = none → matcher = .named ∨
          matcher = .screen := by decide
      rcases unknown matcher (mem_all matcher) known with rfl | isScreenMatcher
      · rw [reading?, notNamed] at reads
        cases reads
      · exact isScreenMatcher
  | some lead =>
      rw [reading?_eq_none known (noLead lead (mem_leads known))] at reads
      cases reads

theorem eq_of_reads_of_areApart (apart : AreApart screens) {first second : Matcher}
    (firstReads : (first.reading? screens segment).isSome = true)
    (secondReads : (second.reading? screens segment).isSome = true) : first = second := by
  cases found : screens.lookup segment with
  | none => exact eq_of_reads found firstReads secondReads
  | some width =>
      rw [eq_screen_of_reads apart found firstReads, eq_screen_of_reads apart found secondReads]

/-- As long as the screens have names of their own, at most one matcher finds a variant in a
segment, so that the matchers may be asked in any order; and the variant has the segment as it was
written. The standard screens have names of their own. -/
theorem findSome?_variant?_of_perm :
    AreApart Theme.standardScreens ∧
    ∀ (screens : Dictionary Text) (segment : Text), AreApart screens →
      (∀ first second : Matcher, (first.variant? screens segment).isSome = true →
        (second.variant? screens segment).isSome = true → first = second) ∧
      (∀ order : List Matcher, order.Perm all →
        order.findSome? (fun matcher => matcher.variant? screens segment) =
          Vocabulary.variant? ⟨screens⟩ segment) ∧
      ∀ variant, Vocabulary.variant? ⟨screens⟩ segment = some variant →
        variant.written = segment := by
  refine ⟨by decide +kernel, fun screens segment apart => ?_⟩
  have unique : ∀ first second : Matcher, (first.variant? screens segment).isSome = true →
      (second.variant? screens segment).isSome = true → first = second := by
    intro first second firstReads secondReads
    rw [variant?, Option.isSome_map] at firstReads secondReads
    exact eq_of_reads_of_areApart apart firstReads secondReads
  refine ⟨unique, fun order isOrder => findSome?_eq_of_perm unique isOrder, ?_⟩
  intro variant found
  exact (Vocabulary.variant?_eq_some found).1

/-- A query that holds an `&`, with the matcher for fragments asked before the one for queries. -/
theorem findSome?_variant?_of_perm_reversed :
    AreApart Theme.standardScreens ∧ all.reverse.Perm all ∧
    all.reverse.findSome? (fun matcher => matcher.variant? Theme.standardScreens "[@media_&]") =
      some ⟨.arbitraryMedia, "[@media_&]", "&"⟩ ∧
    ∀ matcher : Matcher, (matcher.variant? Theme.standardScreens "[@media_&]").isSome = true →
      matcher = .query := by
  rcases findSome?_variant?_of_perm with ⟨apart, distinct⟩
  rcases distinct Theme.standardScreens "[@media_&]" apart with ⟨unique, anyOrder, -⟩
  refine ⟨apart, List.reverse_perm all, ?_, fun matcher reads => unique matcher .query reads rfl⟩
  rw [anyOrder all.reverse (List.reverse_perm all)]
  rfl

end Matcher

namespace Vocabulary

/-- Whatever reads a segment that is no screen, the vocabulary reads it so. -/
theorem variant?_eq_of_reads {vocabulary : Vocabulary} {segment : Text}
    (notScreen : vocabulary.screens.lookup segment = none) {matcher : Matcher} {variant : Variant}
    (reads : matcher.variant? vocabulary.screens segment = some variant) :
    vocabulary.variant? segment = some variant := by
  cases found : vocabulary.variant? segment with
  | none =>
      rw [variant?, List.findSome?_eq_none_iff] at found
      rw [found matcher (Matcher.mem_all matcher)] at reads
      cases reads
  | some other =>
      rcases List.exists_of_findSome?_eq_some found with ⟨reader, -, readerReads⟩
      have readsSome := congrArg Option.isSome reads
      have readerReadsSome := congrArg Option.isSome readerReads
      rw [Matcher.variant?, Option.isSome_map] at readsSome readerReadsSome
      have same := Matcher.eq_of_reads notScreen readerReadsSome readsSome
      rw [← readerReads, same, reads]

end Vocabulary

end AtomicCss
