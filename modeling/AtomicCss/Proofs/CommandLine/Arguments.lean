import AtomicCss.CommandLine.Command
import AtomicCss.Proofs.FirstReading
import Mathlib.Data.List.Basic

/-!
# What arguments state

The arguments after the word `compile` spell a row of items, one after the other: an option with a
value is spelled by one of its flags and the value, whatever that is, and everything that is no flag
is a candidate. `Spells` says this without a reader, and the reader finds the items that are
spelled. All other arguments spell items up to a flag that stands last and lacks its value, and
these the reader refuses.

Leaving out the output options together with their values leaves arguments that spell the other
items.
-/

namespace AtomicCss.Command

inductive Spells : (items : List Item) → (words : List Text) → Prop
  | nil : Spells [] []
  | output {flag path : Text} {items : List Item} {words : List Text}
      (isFlag : flag ∈ outputFlags) (others : Spells items words) :
      Spells (.output path :: items) (flag :: path :: words)
  | config {flag path : Text} {items : List Item} {words : List Text}
      (isFlag : flag ∈ configFlags) (others : Spells items words) :
      Spells (.config path :: items) (flag :: path :: words)
  | minify {items : List Item} {words : List Text} (others : Spells items words) :
      Spells (.minify :: items) (minifyFlag :: words)
  | candidate {word : Text} {items : List Item} {words : List Text}
      (notOutput : word ∉ outputFlags) (notConfig : word ∉ configFlags)
      (notMinify : word ≠ minifyFlag) (others : Spells items words) :
      Spells (.candidate word :: items) (word :: words)

theorem notMem_outputFlags_of_mem_configFlags {flag : Text} (isFlag : flag ∈ configFlags) :
    flag ∉ outputFlags := by
  revert flag
  decide

/-! ### Reading -/

theorem compileItems_output {flag : Text} (isFlag : flag ∈ outputFlags) (path : Text)
    (words : List Text) :
    compileItems (flag :: path :: words) = (compileItems words).map (.output path :: ·) := by
  rw [compileItems.eq_def]
  simp only [List.contains_iff_mem, isFlag, if_true]

theorem compileItems_config {flag : Text} (isFlag : flag ∈ configFlags) (path : Text)
    (words : List Text) :
    compileItems (flag :: path :: words) = (compileItems words).map (.config path :: ·) := by
  have notOutput := notMem_outputFlags_of_mem_configFlags isFlag
  rw [compileItems.eq_def]
  simp only [List.contains_iff_mem, notOutput, isFlag, if_false, if_true]

theorem compileItems_minify (words : List Text) :
    compileItems (minifyFlag :: words) = (compileItems words).map (.minify :: ·) := by
  have notOutput : minifyFlag ∉ outputFlags := by decide
  have notConfig : minifyFlag ∉ configFlags := by decide
  rw [compileItems.eq_def]
  simp only [List.contains_iff_mem, notOutput, notConfig, if_false, if_true]

theorem compileItems_candidate {word : Text} (notOutput : word ∉ outputFlags)
    (notConfig : word ∉ configFlags) (notMinify : word ≠ minifyFlag) (words : List Text) :
    compileItems (word :: words) = (compileItems words).map (.candidate word :: ·) := by
  rw [compileItems.eq_def]
  simp only [List.contains_iff_mem, notOutput, notConfig, notMinify, if_false]

theorem map_cons_of_eq_map_append {item : Item} {items : List Item}
    {result read : Except ArgumentError (List Item)} (same : result = read.map (items ++ ·)) :
    result.map (item :: ·) = read.map (item :: items ++ ·) := by
  subst same
  cases read <;> rfl

/-- Words that spell items are read as these, whatever stands behind them. -/
theorem compileItems_append {items : List Item} {words : List Text}
    (spelled : Spells items words) (rest : List Text) :
    compileItems (words ++ rest) = (compileItems rest).map (items ++ ·) := by
  induction spelled with
  | nil => exact (congrFun Except.map_id (compileItems rest)).symm
  | output isFlag _ ih =>
      exact (compileItems_output isFlag _ _).trans (map_cons_of_eq_map_append ih)
  | config isFlag _ ih =>
      exact (compileItems_config isFlag _ _).trans (map_cons_of_eq_map_append ih)
  | minify _ ih =>
      exact (compileItems_minify _).trans (map_cons_of_eq_map_append ih)
  | candidate notOutput notConfig notMinify _ ih =>
      exact (compileItems_candidate notOutput notConfig notMinify _).trans
        (map_cons_of_eq_map_append ih)

theorem compileItems_of_spells {items : List Item} {words : List Text}
    (spelled : Spells items words) : compileItems words = .ok items := by
  have read := compileItems_append spelled []
  rw [List.append_nil] at read
  simpa only [compileItems, Except.map, List.append_nil] using read

/-! ### Rows that end too soon -/

/-- The words spell items, up to a flag of `option` that stands last and lacks its value. -/
inductive Dangles : (option : Text) → (words : List Text) → Prop
  | output {flag : Text} {items : List Item} {words : List Text} (isFlag : flag ∈ outputFlags)
      (spelled : Spells items words) : Dangles "--output" (words ++ [flag])
  | config {flag : Text} {items : List Item} {words : List Text} (isFlag : flag ∈ configFlags)
      (spelled : Spells items words) : Dangles "--config" (words ++ [flag])

section Rows

variable {items : List Item} {words rest : List Text} {option : Text}

theorem Spells.append {others : List Item} (spelled : Spells items words)
    (spelledRest : Spells others rest) : Spells (items ++ others) (words ++ rest) := by
  induction spelled with
  | nil => exact spelledRest
  | output isFlag _ ih => exact .output isFlag ih
  | config isFlag _ ih => exact .config isFlag ih
  | minify _ ih => exact .minify ih
  | candidate notOutput notConfig notMinify _ ih =>
      exact .candidate notOutput notConfig notMinify ih

theorem Dangles.prepend (spelled : Spells items words) (dangles : Dangles option rest) :
    Dangles option (words ++ rest) := by
  cases dangles with
  | output isFlag spelledRest =>
      rw [← List.append_assoc]
      exact .output isFlag (spelled.append spelledRest)
  | config isFlag spelledRest =>
      rw [← List.append_assoc]
      exact .config isFlag (spelled.append spelledRest)

theorem compileItems_of_dangles (dangles : Dangles option words) :
    compileItems words = .error (.missingValue "compile" option) := by
  cases dangles with
  | @output flag _ words isFlag spelled =>
      have fails : compileItems [flag] = .error (.missingValue "compile" "--output") := by
        simp only [compileItems, List.contains_iff_mem, isFlag, if_true]
      rw [compileItems_append spelled, fails]
      rfl
  | @config flag _ words isFlag spelled =>
      have notOutput : flag ∉ outputFlags := notMem_outputFlags_of_mem_configFlags isFlag
      have fails : compileItems [flag] = .error (.missingValue "compile" "--config") := by
        simp only [compileItems, List.contains_iff_mem, isFlag, notOutput, if_true, if_false]
      rw [compileItems_append spelled, fails]
      rfl

end Rows

/-! ### All rows -/

/-- Whether the words are of one of the two kinds that there are. -/
def IsRow (words : List Text) : Prop :=
  (∃ items, Spells items words) ∨ ∃ option, Dangles option words

theorem IsRow.prepend {item : Item} {words rest : List Text} (spelled : Spells [item] words)
    (isRow : IsRow rest) : IsRow (words ++ rest) := by
  rcases isRow with ⟨items, spelledRest⟩ | ⟨option, dangles⟩
  · exact .inl ⟨item :: items, spelled.append spelledRest⟩
  · exact .inr ⟨option, dangles.prepend spelled⟩

/-- The cases are those of the reader, which takes one item off the front at a time. -/
theorem isRow (words : List Text) : IsRow words := by
  induction words using compileItems.induct with
  | case1 => exact .inl ⟨[], .nil⟩
  | case2 flag isFlag =>
      rw [List.contains_iff_mem] at isFlag
      exact .inr ⟨"--output", .output isFlag .nil⟩
  | case3 flag isFlag path words ih =>
      rw [List.contains_iff_mem] at isFlag
      exact ih.prepend (.output isFlag .nil)
  | case4 flag _ isFlag =>
      rw [List.contains_iff_mem] at isFlag
      exact .inr ⟨"--config", .config isFlag .nil⟩
  | case5 flag _ isFlag path words ih =>
      rw [List.contains_iff_mem] at isFlag
      exact ih.prepend (.config isFlag .nil)
  | case6 words _ _ ih => exact ih.prepend (.minify .nil)
  | case7 word words notOutput notConfig notMinify ih =>
      rw [List.contains_iff_mem] at notOutput notConfig
      exact ih.prepend (.candidate notOutput notConfig notMinify .nil)

theorem Spells.unique {items others : List Item} {words : List Text} (spelled : Spells items words)
    (otherwise : Spells others words) : items = others := by
  have read : compileItems words = .ok items := compileItems_of_spells spelled
  rw [compileItems_of_spells otherwise] at read
  exact (Except.ok.inj read).symm

/-- Arguments are read only if they spell something: the other kind of row is an error. -/
theorem spells_of_compileItems {items : List Item} {words : List Text}
    (read : compileItems words = .ok items) : Spells items words := by
  rcases isRow words with ⟨others, spelled⟩ | ⟨option, dangles⟩
  · rw [compileItems_of_spells spelled] at read
    cases read
    exact spelled
  · rw [compileItems_of_dangles dangles] at read
    cases read

/-! ### Leaving out items -/

/-- The arguments without their output options. -/
def withoutOutput : List Text → List Text
  | [] => []
  | [word] => [word]
  | word :: next :: words =>
      if outputFlags.contains word then withoutOutput words
      else if configFlags.contains word then word :: next :: withoutOutput words
      else word :: withoutOutput (next :: words)

def Item.isOutput : Item → Bool
  | .output _ => true
  | _ => false

def Item.isCandidate : Item → Bool
  | .candidate _ => true
  | _ => false

theorem withoutOutput_cons {word : Text} (notOutput : word ∉ outputFlags)
    (notConfig : word ∉ configFlags) (words : List Text) :
    withoutOutput (word :: words) = word :: withoutOutput words := by
  cases words with
  | nil => rfl
  | cons next words => simp [withoutOutput, notOutput, notConfig]

theorem spells_withoutOutput {items : List Item} {words : List Text}
    (spelled : Spells items words) :
    Spells (items.filter (!·.isOutput)) (withoutOutput words) := by
  induction spelled with
  | nil => exact .nil
  | output isFlag others ih => simpa [withoutOutput, isFlag, Item.isOutput] using ih
  | config isFlag others ih =>
      have notOutput := notMem_outputFlags_of_mem_configFlags isFlag
      simpa [withoutOutput, notOutput, isFlag, Item.isOutput] using Spells.config isFlag ih
  | minify others ih =>
      rw [withoutOutput_cons (by decide) (by decide)]
      exact .minify ih
  | candidate notOutput notConfig notMinify others ih =>
      rw [withoutOutput_cons notOutput notConfig]
      exact .candidate notOutput notConfig notMinify ih

theorem ofItems_filter_isOutput (items : List Item) :
    ofItems (items.filter (!·.isOutput)) = { ofItems items with output := none } := by
  have noOutput : (items.filter (!·.isOutput)).filterMap Item.output? = [] :=
    (filterMap_filter_eq (fun item => by cases item <;> rfl) items).trans (List.filterMap_none _)
  have sameCandidates : (items.filter (!·.isOutput)).filterMap Item.candidate? =
      items.filterMap Item.candidate? :=
    filterMap_filter_eq (fun item => by cases item <;> rfl) items
  have sameConfig : (items.filter (!·.isOutput)).filterMap Item.config? =
      items.filterMap Item.config? :=
    filterMap_filter_eq (fun item => by cases item <;> rfl) items
  have sameMinify : (items.filter (!·.isOutput)).contains .minify = items.contains .minify := by
    simp [Item.isOutput]
  simp only [ofItems, noOutput, sameCandidates, sameConfig, sameMinify, List.getLast?_nil]

theorem ofItems_filter_isCandidate (items : List Item) :
    ofItems (items.filter (!·.isCandidate)) = { ofItems items with candidates := [] } := by
  have noCandidate : (items.filter (!·.isCandidate)).filterMap Item.candidate? = [] :=
    (filterMap_filter_eq (fun item => by cases item <;> rfl) items).trans (List.filterMap_none _)
  have sameOutput : (items.filter (!·.isCandidate)).filterMap Item.output? =
      items.filterMap Item.output? :=
    filterMap_filter_eq (fun item => by cases item <;> rfl) items
  have sameConfig : (items.filter (!·.isCandidate)).filterMap Item.config? =
      items.filterMap Item.config? :=
    filterMap_filter_eq (fun item => by cases item <;> rfl) items
  have sameMinify : (items.filter (!·.isCandidate)).contains .minify = items.contains .minify := by
    simp [Item.isCandidate]
  simp only [ofItems, noCandidate, sameOutput, sameConfig, sameMinify]

/-! ### Commands -/

theorem exists_of_map_eq_ok {Error Value Mapped : Type} {result : Except Error Value}
    {mapping : Value → Mapped} {mapped : Mapped} (isOk : result.map mapping = .ok mapped) :
    ∃ value, result = .ok value ∧ mapping value = mapped := by
  cases result with
  | error error => cases isOk
  | ok value => exact ⟨value, rfl, Except.ok.inj isOk⟩

/-- The last output option among the arguments `words` of a compile command names `path`. -/
def NamesOutput (words : List Text) (path : Text) : Prop :=
  ∃ items, Spells items words ∧ (items.filterMap Item.output?).getLast? = some path

theorem ofArguments_compile (words : List Text) :
    ofArguments ("compile" :: words) = (compileItems words).map (.compile ∘ ofItems) :=
  rfl

theorem ofArguments_of_spells {items : List Item} {words : List Text}
    (spelled : Spells items words) :
    ofArguments ("compile" :: words) = .ok (.compile (ofItems items)) := by
  rw [ofArguments_compile, compileItems_of_spells spelled]
  rfl

/-- After the word `explain` nothing is read as another command. -/
theorem exists_explain_of_explainFrom {candidate config : Option Text} {words : List Text}
    {command : Command} (read : explainFrom candidate config words = .ok command) :
    ∃ candidate config, command = .explain candidate config := by
  induction candidate, config, words using explainFrom.induct with
  | case1 config candidate =>
      rw [explainFrom] at read
      exact ⟨candidate, config, (Except.ok.inj read).symm⟩
  | case2 config => cases read
  | case3 candidate config flag isFlag =>
      rw [explainFrom.eq_def] at read
      simp only [isFlag, if_true] at read
      cases read
  | case4 candidate config flag isFlag path words ih =>
      rw [explainFrom.eq_def] at read
      simp only [isFlag, if_true] at read
      exact ih read
  | case5 config word words notFlag candidate =>
      rw [explainFrom.eq_def] at read
      simp only [notFlag] at read
      cases read
  | case6 config word words notFlag ih =>
      rw [explainFrom.eq_def] at read
      simp only [notFlag] at read
      exact ih read

theorem exists_spells_of_ofArguments {arguments : List Text} {options : CompileOptions}
    (command : ofArguments arguments = .ok (.compile options)) :
    ∃ items words, arguments = ("compile" : Text) :: words ∧ Spells items words ∧
      options = ofItems items := by
  cases arguments with
  | nil => cases command
  | cons word words =>
      by_cases isCompile : word = "compile"
      · rw [ofArguments, if_pos isCompile] at command
        rcases exists_of_map_eq_ok command with ⟨items, read, isOptions⟩
        cases isOptions
        exact ⟨items, words, by rw [isCompile], spells_of_compileItems read, rfl⟩
      · rw [ofArguments, if_neg isCompile] at command
        split at command
        · rcases exists_explain_of_explainFrom command with ⟨candidate, config, isExplain⟩
          cases isExplain
        · split at command <;> cases command

/-- A compile command that names an output is the one without its output options, but for the
output. -/
theorem NamesOutput.command {words : List Text} {path : Text} (named : NamesOutput words path) :
    ∃ options, ofArguments ("compile" :: words) = .ok (.compile options) ∧
      options.output = some path ∧
      ofArguments ("compile" :: withoutOutput words) =
        .ok (.compile { options with output := none }) := by
  rcases named with ⟨items, spelled, last⟩
  refine ⟨ofItems items, ofArguments_of_spells spelled, last, ?_⟩
  rw [ofArguments_of_spells (spells_withoutOutput spelled), ofItems_filter_isOutput]

theorem exists_namesOutput_of_ofArguments {arguments : List Text} {options : CompileOptions}
    {path : Text} (command : ofArguments arguments = .ok (.compile options))
    (isOutput : options.output = some path) :
    ∃ words, arguments = ("compile" : Text) :: words ∧ NamesOutput words path := by
  rcases exists_spells_of_ofArguments command with ⟨items, words, isCompile, spelled, rfl⟩
  exact ⟨words, isCompile, items, spelled, isOutput⟩

end AtomicCss.Command
