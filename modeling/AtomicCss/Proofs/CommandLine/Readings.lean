import AtomicCss.Proofs.CommandLine.Arguments
import Mathlib.Data.List.Induction

/-!
# What a compile command is made of

The items of a compile command come to its options: the candidates in order, the last value that an
option is given, and whether one of the items asks for minified output. Whatever stands after the
word `compile`, there is one way to read it, which either comes to such options or ends in an error
about the option whose flag lacks a value.
-/

namespace AtomicCss.Command

/-! ### What items come to -/

/-- The value that an option has after `items`, where `option` makes an item of a value: that of the
last such item, if there is one. -/
inductive LastValue (option : Text → Item) : (items : List Item) → (value? : Option Text) → Prop
  | absent {items : List Item} (unused : ∀ value, option value ∉ items) :
      LastValue option items none
  | given {earlier later : List Item} {value : Text} (isLast : ∀ other, option other ∉ later) :
      LastValue option (earlier ++ option value :: later) (some value)

/-- What a row of items makes of the options of a command. -/
structure Collects (items : List Item) (options : CompileOptions) : Prop where
  candidates : items.filter Item.isCandidate = options.candidates.map .candidate
  output : LastValue .output items options.output
  minify : options.minify = true ↔ .minify ∈ items
  config : LastValue .config items options.config

section LastValue

variable {option : Text → Item}

/-- An item that is not for the option leaves its value as it is. -/
theorem LastValue.concat {items : List Item} {value? : Option Text} {item : Item}
    (lastValue : LastValue option items value?) (unrelated : ∀ value, option value ≠ item) :
    LastValue option (items ++ [item]) value? := by
  have stillUnused {others : List Item} (unused : ∀ value, option value ∉ others) :
      ∀ value, option value ∉ others ++ [item] := by
    intro value member
    rcases List.mem_append.mp member with among | isItem
    · exact unused value among
    · exact unrelated value (List.mem_singleton.mp isItem)
  cases lastValue with
  | absent unused => exact .absent (stillUnused unused)
  | @given earlier later value isLast =>
      rw [List.append_assoc, List.cons_append]
      exact .given (stillUnused isLast)

/-- The induction adds items at the end, where each may replace the value that was there before. -/
theorem lastValue_getLast? {found? : Item → Option Text}
    (finds : ∀ item value, found? item = some value ↔ option value = item) (items : List Item) :
    LastValue option items (items.filterMap found?).getLast? := by
  induction items using List.reverseRecOn with
  | nil => exact .absent fun value => List.not_mem_nil
  | append_singleton items item ih =>
      cases found : found? item with
      | none =>
          have skipped : (items ++ [item]).filterMap found? = items.filterMap found? := by
            simp [found]
          rw [skipped]
          apply ih.concat
          intro value isOption
          have finding : found? item = some value := (finds item value).mpr isOption
          rw [found] at finding
          cases finding
      | some value =>
          have replaced : ((items ++ [item]).filterMap found?).getLast? = some value := by
            simp [found]
          have isOption : option value = item := (finds item value).mp found
          rw [replaced, ← isOption]
          exact .given fun other => List.not_mem_nil

end LastValue

theorem filter_isCandidate (items : List Item) :
    items.filter Item.isCandidate = (items.filterMap Item.candidate?).map .candidate := by
  induction items with
  | nil => rfl
  | cons item items ih =>
      cases item with
      | candidate text => exact congrArg (.candidate text :: ·) ih
      | output path | config path => exact ih
      | minify => exact ih

theorem collects_ofItems (items : List Item) : Collects items (ofItems items) where
  candidates := filter_isCandidate items
  output := by
    apply lastValue_getLast?
    intro item value
    cases item <;> simp [Item.output?, eq_comm]
  minify := List.contains_iff_mem
  config := by
    apply lastValue_getLast?
    intro item value
    cases item <;> simp [Item.config?, eq_comm]

/-! ### Commands -/

/-- Words that spell items make the command that these come to, and a flag without a value makes an
error that names its option. All words do one or the other, and spell one row of items at most. -/
theorem ofArguments_readsBack (words : List Text) :
    (∀ items, Spells items words → ∃ options, Collects items options ∧
      ofArguments ("compile" :: words) = .ok (.compile options)) ∧
    (∀ option, Dangles option words → ∃ error : ArgumentError,
      error.message = "compile requires a value for " ++ option ∧
      ofArguments ("compile" :: words) = .error error) ∧
    ((∃! items, Spells items words) ∨ ∃ option, Dangles option words) := by
  refine ⟨?_, ?_, ?_⟩
  · intro items spelled
    exact ⟨ofItems items, collects_ofItems items, ofArguments_of_spells spelled⟩
  · intro option dangles
    refine ⟨.missingValue "compile" option, rfl, ?_⟩
    rw [ofArguments_compile, compileItems_of_dangles dangles]
    rfl
  · rcases isRow words with ⟨items, spelled⟩ | dangles
    · exact .inl ⟨items, spelled, fun others otherwise => otherwise.unique spelled⟩
    · exact .inr dangles

/-- Flags may be values, and the last value counts; a flag without a value is refused even behind
one that is a value. -/
theorem ofArguments_readsBack_flagsAsValues :
    let words : List Text :=
      ["--minify", "-c", "--minify", "flex", "--out", "a.css", "-o", "-c", "md:hidden"]
    let options : CompileOptions := ⟨["flex", "md:hidden"], some "-c", true, some "--minify"⟩
    (∃ items, Spells items words ∧ Collects items options) ∧
      ofArguments ("compile" :: words) = .ok (.compile options) ∧
      ∃ error : ArgumentError, error.message = "compile requires a value for --config" ∧
        ofArguments ["compile", "-o", "-o", "-c"] = .error error := by
  intro words options
  have spelled : Spells
      [.minify, .config "--minify", .candidate "flex", .output "a.css", .output "-c",
        .candidate "md:hidden"] words :=
    .minify <| .config (by decide) <| .candidate (by decide) (by decide) (by decide) <|
      .output (by decide) <| .output (by decide) <|
      .candidate (by decide) (by decide) (by decide) .nil
  have dangles : Dangles "--config" (["-o", "-o"] ++ ["-c"]) :=
    .config (by decide) (.output (by decide) .nil)
  have known : ofArguments ("compile" :: words) = .ok (.compile options) := by decide
  rcases (ofArguments_readsBack words).1 _ spelled with ⟨others, collects, read⟩
  have same : others = options := by
    rw [known] at read
    cases read
    rfl
  rw [same] at collects
  exact ⟨⟨_, spelled, collects⟩, known, (ofArguments_readsBack _).2.1 _ dangles⟩

end AtomicCss.Command
