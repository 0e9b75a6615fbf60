/-
This file shows that step files are sorted by a total order that separates different file names.
-/

import Mathlib.Data.List.Nodup
import Mathlib.Data.Prod.Lex
import Mathlib.Data.String.Basic
import WorkflowBundle.Workflow.StepName

namespace WorkflowBundle.StepName

/-- The rank of a key orders by number, then by letter, then by name. -/
def Key.rank (key : Key) : Nat ×ₗ String ×ₗ String :=
  toLex (key.number, toLex (key.letter, key.name))

def rankOf (path : Path) : Nat ×ₗ String ×ₗ String :=
  (key (nameOf path)).rank

section

variable {paths others : List Path} {first second : Path}

theorem Key.le_iff (first second : Key) : first.le second = true ↔ first.rank ≤ second.rank := by
  rw [Key.le, rank, rank, Prod.Lex.toLex_le_toLex, Prod.Lex.toLex_le_toLex]
  by_cases number : first.number = second.number
  · by_cases letter : first.letter = second.letter
    · simp [number, letter]
    · simp [number, letter]
  · simp [number]

theorem name_key (name : String) : (key name).name = name := by
  rw [key]
  split <;> rfl

theorem nameOf_eq_of_rankOf_eq (same : rankOf first = rankOf second) :
    nameOf first = nameOf second := by
  have keys : (key (nameOf first)).name = (key (nameOf second)).name :=
    congrArg (fun rank => (ofLex (ofLex rank).2).2) same
  rwa [name_key, name_key] at keys

theorem sort_perm (paths : List Path) : (sort paths).Perm paths :=
  List.mergeSort_perm paths _

theorem pairwise_sort (paths : List Path) :
    (sort paths).Pairwise fun first second => rankOf first ≤ rankOf second := by
  refine (List.pairwise_mergeSort ?_ ?_ paths).imp (Key.le_iff _ _).1
  · intro first second third before after
    rw [Key.le_iff] at before after ⊢
    exact before.trans after
  · intro first second
    rw [Bool.or_eq_true, Key.le_iff, Key.le_iff]
    exact le_total _ _

/-- Of two paths with different ranks the one with the lower rank stands before the other one. -/
theorem pair_sublist_sort_iff (firstMember : first ∈ paths) (secondMember : second ∈ paths)
    (different : rankOf first ≠ rankOf second) :
    [first, second].Sublist (sort paths) ↔ rankOf first < rankOf second := by
  constructor
  · intro before
    have ordered := (pairwise_sort paths).sublist before
    exact lt_of_le_of_ne (List.rel_of_pairwise_cons ordered List.mem_cons_self) different
  · intro lower
    have member := (sort_perm paths).mem_iff.2 firstMember
    obtain ⟨front, behind, shape⟩ := List.append_of_mem member
    have other := (sort_perm paths).mem_iff.2 secondMember
    have ordered := pairwise_sort paths
    rw [shape] at other ordered ⊢
    have later : second ∈ behind := by
      rcases List.mem_append.1 other with earlier | same | ⟨_, later⟩
      · have order := List.pairwise_append.1 ordered |>.2.2 second earlier first List.mem_cons_self
        exact absurd order lower.not_ge
      · exact absurd rfl different
      · exact later
    exact ((List.singleton_sublist.2 later).cons_cons first).trans (List.sublist_append_right front _)

/-- Paths with different file names are sorted to one sequence in whatever order they come. -/
theorem sort_eq_of_perm (same : paths.Perm others) (different : (paths.map nameOf).Nodup) :
    sort paths = sort others := by
  have sorted : (sort paths).Perm (sort others) :=
    (sort_perm paths).trans (same.trans (sort_perm others).symm)
  refine sorted.eq_of_pairwise ?_ (pairwise_sort paths) (pairwise_sort others)
  intro first second firstMember secondMember before after
  have names := nameOf_eq_of_rankOf_eq (before.antisymm after)
  have firstHere := (sort_perm paths).mem_iff.1 firstMember
  have secondHere := same.mem_iff.2 ((sort_perm others).mem_iff.1 secondMember)
  exact List.inj_on_of_nodup_map different firstHere secondHere names

end

end WorkflowBundle.StepName
