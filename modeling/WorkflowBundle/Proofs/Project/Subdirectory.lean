/-
This file compares proper subdirectories with the places that their steps lead to.
-/

import WorkflowBundle.Project.ReviewScope
import WorkflowBundle.Proofs.Path.Relative
import WorkflowBundle.Proofs.Path.Resolution

namespace WorkflowBundle.ReviewScope

open WorkflowBundle.Path (IsBelow LeadsBelow resolve)

/-- The steps of an absolute path start at the root. -/
def lead (path : String) : List Path.Component :=
  if (Path.mk path).isAbsolute then [.root] else []

section

variable {directory root : String}

/-- Behind its lead the steps of a path have no root. -/
theorem exists_stepsOf (path : String) :
    ∃ steps, stepsOf path = lead path ++ steps ∧ .root ∉ steps := by
  let pieces := (Path.mk path).pieces
  refine ⟨(pieces.filterMap Path.componentOf?).filter (· != .current), ?_, fun member =>
    Path.root_not_mem_filterMap pieces (List.mem_of_mem_filter member)⟩
  rw [stepsOf, Path.components, lead]
  split
  · rfl
  · split <;> rfl

/-- A directory is a proper subdirectory exactly when its steps go on behind those of the root. -/
theorem isProperSubdirectory_iff :
    isProperSubdirectory directory root = true ↔
      ∃ behind, behind ≠ [] ∧ stepsOf directory = stepsOf root ++ behind := by
  rw [isProperSubdirectory, Bool.and_eq_true, List.isPrefixOf_iff_prefix, bne_iff_ne]
  constructor
  · rintro ⟨⟨behind, shape⟩, apart⟩
    refine ⟨behind, ?_, shape.symm⟩
    rintro rfl
    exact apart (by rw [← shape, List.append_nil])
  · rintro ⟨behind, further, shape⟩
    exact shape ▸ (Path.isBelow_append further)

/-- What follows the steps of a path of the same kind has no root. -/
theorem root_not_mem_of_stepsOf_eq {behind : List Path.Component}
    (alike : (Path.mk directory).isAbsolute = (Path.mk root).isAbsolute)
    (shape : stepsOf directory = stepsOf root ++ behind) : .root ∉ behind := by
  obtain ⟨steps, own, relative⟩ := exists_stepsOf directory
  obtain ⟨before, base, -⟩ := exists_stepsOf root
  have same : lead directory = lead root := by rw [lead, lead, alike]
  rw [own, base, same, List.append_assoc, List.append_cancel_left_eq] at shape
  exact fun member => relative (shape ▸ List.mem_append_right _ member)

theorem current_not_mem_stepsOf (path : String) : .current ∉ stepsOf path := by
  simp [stepsOf]

/-- The steps of a proper subdirectory go on behind those of the root. The place they lead to is below
that of the root exactly when the way behind the root leads below it: where this way climbs, it has to
come back through the names that it leaves, unless there are none to leave. A way without steps to
the parent always leads below. -/
theorem subdirectory_is_below_iff_way_comes_back
    (alike : (Path.mk directory).isAbsolute = (Path.mk root).isAbsolute)
    (proper : isProperSubdirectory directory root = true) :
    ∃ behind, behind ≠ [] ∧ stepsOf directory = stepsOf root ++ behind ∧
      (IsBelow (resolve (stepsOf directory)) (resolve (stepsOf root)) ↔
        LeadsBelow (resolve (stepsOf root)) (resolve behind)) ∧
      (.parent ∉ behind → IsBelow (resolve (stepsOf directory)) (resolve (stepsOf root))) := by
  obtain ⟨behind, further, shape⟩ := isProperSubdirectory_iff.1 proper
  have relative := root_not_mem_of_stepsOf_eq alike shape
  have below := @Path.isBelow_resolve_append_iff (stepsOf root) behind relative
  rw [← shape] at below
  refine ⟨behind, further, shape, below, fun noParent => below.2 ?_⟩
  have named : ∀ component ∈ behind, component.isName = true := by
    intro component member
    have step : component ∈ stepsOf directory := shape ▸ List.mem_append_right _ member
    cases component with
    | root => exact absurd member relative
    | current => exact absurd step (current_not_mem_stepsOf directory)
    | parent => exact absurd member noParent
    | name text => rfl
  rw [Path.resolve_of_names named]
  exact Path.leadsBelow_of_names named further

/-- A way that climbs out of the root and comes back leads below it. -/
theorem detour_is_below :
    isProperSubdirectory "tests/../tests/./api" "tests/" = true ∧
      IsBelow (resolve (stepsOf "tests/../tests/./api")) (resolve (stepsOf "tests/")) := by
  have proper : isProperSubdirectory "tests/../tests/./api" "tests/" = true := by decide
  obtain ⟨behind, -, shape, below, -⟩ :=
    subdirectory_is_below_iff_way_comes_back (by decide) proper
  obtain rfl : behind = [.parent, .name "tests", .name "api"] :=
    List.append_cancel_left (shape.symm.trans (by decide))
  refine ⟨proper, below.2 ?_⟩
  let tests : Path.Component := .name "tests"
  let names : List Path.Component := [tests, .name "api"]
  have place : resolve (stepsOf "tests/") = [] ++ [tests] := by decide
  have back : IsBelow names [tests] := Path.isBelow_append (List.cons_ne_nil _ _)
  exact .again place (by decide) (by decide) back

/-- The directory that holds the root counts as a proper subdirectory of it. -/
theorem holder_is_proper_subdirectory :
    isProperSubdirectory "tests/.." "tests" = true ∧
      ¬ IsBelow (resolve (stepsOf "tests/..")) (resolve (stepsOf "tests")) := by
  decide

end

end WorkflowBundle.ReviewScope
