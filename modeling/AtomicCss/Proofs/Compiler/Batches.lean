import AtomicCss.Compiler
import Mathlib.Data.List.Basic
import Mathlib.Data.List.Induction

/-!
# Batches

A batch is compiled candidate by candidate. One more candidate at its end adds its outcome, unless
the candidate has occurred before, and changes none of the outcomes before it. So the outcomes of
a batch are those of its distinct members, each compiled as if it stood alone, in the order of their
first occurrences; and a batch can be cut in two, as long as its second part is compiled without
what the first part holds already.

`FirstOccurrences` says which list the distinct members form, without saying how it is found.
-/

namespace AtomicCss

/-- The members of a batch, each of them once, in the order of their first occurrences. -/
structure FirstOccurrences (candidates distinct : List Text) : Prop where
  mem_iff (candidate : Text) : candidate ∈ distinct ↔ candidate ∈ candidates
  ordered : distinct.Pairwise fun left right => candidates.idxOf left < candidates.idxOf right

namespace FirstOccurrences

theorem nodup {candidates distinct : List Text}
    (occurrences : FirstOccurrences candidates distinct) : distinct.Nodup := by
  apply occurrences.ordered.imp
  rintro left right before rfl
  omega

/-- A batch has no other list of first occurrences. -/
theorem unique {candidates left right : List Text}
    (lefts : FirstOccurrences candidates left) (rights : FirstOccurrences candidates right) :
    left = right := by
  have sameMembers : left.Perm right := by
    rw [List.perm_ext_iff_of_nodup lefts.nodup rights.nodup]
    intro candidate
    rw [lefts.mem_iff, rights.mem_iff]
  apply sameMembers.eq_of_pairwise ?_ lefts.ordered rights.ordered
  intro first second _ _ before after
  omega

/-- What one more candidate adds to the first occurrences. -/
theorem concat {candidates distinct : List Text}
    (occurrences : FirstOccurrences candidates distinct) (candidate : Text) :
    FirstOccurrences (candidates ++ [candidate])
      (if candidate ∈ candidates then distinct else distinct ++ [candidate]) := by
  have keepsOrder : distinct.Pairwise fun left right =>
      (candidates ++ [candidate]).idxOf left < (candidates ++ [candidate]).idxOf right := by
    apply occurrences.ordered.imp_of_mem
    intro left right leftMem rightMem before
    rw [List.idxOf_append_of_mem ((occurrences.mem_iff left).mp leftMem),
      List.idxOf_append_of_mem ((occurrences.mem_iff right).mp rightMem)]
    exact before
  split
  · rename_i seen
    refine ⟨fun other => ?_, keepsOrder⟩
    rw [occurrences.mem_iff, List.mem_append, List.mem_singleton]
    constructor
    · exact .inl
    · rintro (member | rfl)
      · exact member
      · exact seen
  · rename_i unseen
    refine ⟨fun other => ?_, List.pairwise_append.mpr ⟨keepsOrder, List.pairwise_singleton _ _, ?_⟩⟩
    · rw [List.mem_append, List.mem_append, occurrences.mem_iff]
    · intro left leftMem right rightMem
      have leftSeen := (occurrences.mem_iff left).mp leftMem
      rw [List.mem_singleton] at rightMem
      subst rightMem
      rw [List.idxOf_append_of_mem leftSeen, List.idxOf_append_of_notMem unseen]
      have inside := List.idxOf_lt_length_of_mem leftSeen
      omega

theorem of_eraseDups (candidates : List Text) :
    FirstOccurrences candidates candidates.eraseDups := by
  induction candidates using List.reverseRecOn with
  | nil => exact ⟨by simp, .nil⟩
  | append_singleton candidates candidate ih =>
      have step : (candidates ++ [candidate]).eraseDups =
          if candidate ∈ candidates then candidates.eraseDups
          else candidates.eraseDups ++ [candidate] := by
        rw [List.eraseDups_append]
        by_cases seen : candidate ∈ candidates <;> simp [List.removeAll, List.eraseDups_cons, seen]
      rw [step]
      exact ih.concat candidate

end FirstOccurrences

namespace Compiler

variable (compiler : Compiler)

theorem compileAll_append (earlier later : List Text) :
    compiler.compileAll (earlier ++ later) =
      compiler.compileAll earlier ++
        compiler.compileAll (later.filter fun candidate => candidate ∉ earlier) := by
  have unseen : later.removeAll earlier = later.filter fun candidate => candidate ∉ earlier := by
    simp [List.removeAll]
  rw [compileAll, compileAll, compileAll, List.eraseDups_append, List.map_append, unseen]

theorem compileAll_eq_map {candidates distinct : List Text}
    (occurrences : FirstOccurrences candidates distinct) :
    compiler.compileAll candidates =
      distinct.map fun candidate => ⟨candidate, compiler.compile candidate⟩ := by
  rw [occurrences.unique (.of_eraseDups candidates)]
  rfl

theorem rules_eq_filterMap {candidates distinct : List Text}
    (occurrences : FirstOccurrences candidates distinct) :
    compiler.rules candidates =
      distinct.filterMap fun candidate => (compiler.compile candidate).toOption := by
  rw [rules, compiler.compileAll_eq_map occurrences, List.filterMap_map]
  rfl

/-- A batch can be cut anywhere, its outcomes are those of its distinct members in the order of
their first occurrences, and its rules and its style sheet hold the results among them. -/
theorem compileAll_isolated (candidates : List Text) :
    (∀ later, compiler.compileAll (candidates ++ later) =
      compiler.compileAll candidates ++
        compiler.compileAll (later.filter fun candidate => candidate ∉ candidates)) ∧
    (∃ distinct, (∀ other, FirstOccurrences candidates other ↔ other = distinct) ∧
      (∀ index : Nat, (compiler.compileAll candidates)[index]? =
        distinct[index]?.map fun candidate => ⟨candidate, compiler.compile candidate⟩) ∧
      compiler.rules candidates =
        distinct.filterMap fun candidate => (compiler.compile candidate).toOption) ∧
    ∀ layout, Outcome.printAll layout (compiler.compileAll candidates) =
      Rule.printAll layout (compiler.rules candidates) := by
  have occurrences := FirstOccurrences.of_eraseDups candidates
  refine ⟨compiler.compileAll_append candidates, ⟨candidates.eraseDups, ?_, ?_, ?_⟩, ?_⟩
  · intro other
    constructor
    · intro others
      exact others.unique occurrences
    · rintro rfl
      exact occurrences
  · intro index
    rw [compiler.compileAll_eq_map occurrences, List.getElem?_map]
  · exact compiler.rules_eq_filterMap occurrences
  · intro layout
    rfl

/-- A refused candidate leaves the others as they are, and a repeated one is dropped. -/
example : (ofSettings .standard).rules ["flex", "wobble:flex", "hidden", "flex"] =
    [⟨".flex", [], [⟨"display", "flex"⟩]⟩, ⟨".hidden", [], [⟨"display", "none"⟩]⟩] := rfl

end Compiler

end AtomicCss
