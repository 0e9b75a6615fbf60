/-
This file shows that the first step of a workflow does not depend on the order in which directories
are listed.
-/

import WorkflowBundle.Proofs.FileTree.Listing
import WorkflowBundle.Proofs.Workflow.StepOrder
import WorkflowBundle.Workflow.Layout

namespace WorkflowBundle

namespace StepName

/-- A path is the first step of some paths when it is a step file whose rank is least. -/
structure IsFirstStep (paths : List Path) (first : Path) : Prop where
  member : first ∈ paths
  stepFile : isStepFile (nameOf first) = true
  least : ∀ path ∈ paths, isStepFile (nameOf path) = true → rankOf first ≤ rankOf path

section

variable {paths others : List Path} {first : Path}

theorem first?_eq_none_iff :
    first? paths = none ↔ ∀ path ∈ paths, isStepFile (nameOf path) = false := by
  rw [first?, List.head?_eq_none_iff, ← List.length_eq_zero_iff, (sort_perm _).length_eq,
    List.length_eq_zero_iff, List.filter_eq_nil_iff]
  simp only [Bool.not_eq_true]

/-- The first step is a step file with the least rank. -/
theorem isFirstStep_of_first? (found : first? paths = some first) : IsFirstStep paths first := by
  obtain ⟨rest, shape⟩ := List.head?_eq_some_iff.1 found
  have perm := sort_perm (paths.filter fun path => isStepFile (nameOf path))
  have ordered := pairwise_sort (paths.filter fun path => isStepFile (nameOf path))
  rw [shape] at perm ordered
  obtain ⟨member, stepFile⟩ := List.mem_filter.1 (perm.mem_iff.1 List.mem_cons_self)
  refine ⟨member, stepFile, fun path inside isStep => ?_⟩
  rcases List.mem_cons.1 (perm.mem_iff.2 (List.mem_filter.2 ⟨inside, isStep⟩)) with rfl | later
  · exact le_refl _
  · exact List.rel_of_pairwise_cons ordered later

/-- Among different file names exactly the step file with the least rank is the first step. -/
theorem first?_eq_some_iff (different : (paths.map nameOf).Nodup) :
    first? paths = some first ↔ IsFirstStep paths first := by
  refine ⟨isFirstStep_of_first?, fun isFirst => ?_⟩
  cases found : first? paths with
  | none =>
      have none := first?_eq_none_iff.1 found first isFirst.member
      rw [isFirst.stepFile] at none
      nomatch none
  | some other =>
      have isOther := isFirstStep_of_first? found
      have below := isFirst.least other isOther.member isOther.stepFile
      have above := isOther.least first isFirst.member isFirst.stepFile
      have names := nameOf_eq_of_rankOf_eq (above.antisymm below)
      rw [List.inj_on_of_nodup_map different isOther.member isFirst.member names]

theorem first?_eq_of_perm (same : paths.Perm others) (different : (paths.map nameOf).Nodup) :
    first? paths = first? others := by
  have kept : (paths.filter fun path => isStepFile (nameOf path)).Sublist paths :=
    List.filter_sublist
  rw [first?, sort_eq_of_perm (same.filter _) ((kept.map nameOf).nodup different), first?]

end

end StepName

namespace Layout

open FileTree (IsListing Relists)
open StepName (IsFirstStep first? isStepFile nameOf sort)

section

variable {tree other : FileTree}

theorem nodup_nameOf_filesIn (listing : IsListing tree) (directory : Path) :
    ((tree.filesIn directory).map nameOf).Nodup := by
  obtain ⟨names, different, same⟩ := listing.exists_names_of_filesIn directory
  have own : (tree.filesIn directory).map nameOf = names :=
    calc
      (tree.filesIn directory).map nameOf
        = ((tree.filesIn directory).map Path.fileName?).map (·.getD "") := by
          rw [List.map_map]
          rfl
      _ = (names.map some).map (·.getD "") := by rw [same]
      _ = names := by
          rw [List.map_map]
          exact List.map_id names
  exact own ▸ different

theorem detectMode_eq (relists : Relists other tree) (listing : IsListing tree) (directory : Path)
    (mode : Mode) : detectMode other directory mode = detectMode tree directory mode := by
  have files := relists.filesIn_perm listing (directory.join mode.directory)
  have different := nodup_nameOf_filesIn listing (directory.join mode.directory)
  rw [detectMode, detectMode, relists.isDirectory_eq listing,
    StepName.first?_eq_of_perm files.symm different]

/-- Paths with different file names are sorted to the same sequence and have the same first step in
every order, which is the step file with the least rank, and there is none exactly without step files.
So a workflow has the same layout in every listing of its directories. -/
theorem steps_ignore_listing_order :
    (∀ paths others : List Path, paths.Perm others → (paths.map nameOf).Nodup →
      sort paths = sort others ∧ first? paths = first? others ∧
        (∀ first, first? paths = some first ↔ IsFirstStep paths first) ∧
        (first? paths = none ↔ ∀ path ∈ paths, isStepFile (nameOf path) = false)) ∧
      ∀ tree other : FileTree, Relists other tree → IsListing tree → ∀ directory,
        detect other directory = detect tree directory := by
  constructor
  · intro paths others same different
    exact ⟨StepName.sort_eq_of_perm same different, StepName.first?_eq_of_perm same different,
      fun first => StepName.first?_eq_some_iff different, StepName.first?_eq_none_iff⟩
  · intro tree other relists listing directory
    rw [detect, detect, detectMode_eq relists listing, detectMode_eq relists listing,
      detectMode_eq relists listing]

/-- A workflow whose steps have the same number, no number, or are no steps, and a link. -/
def mixedTree : FileTree where
  entries := [
    (["p"], .directory),
    (["p", "steps-c"], .directory),
    (["p", "steps-c", "step-final.md"], .file ByteArray.empty),
    (["p", "steps-c", "step-01b.md"], .link ⟨"step-final.md"⟩),
    (["p", "steps-c", "step-1.txt"], .file ByteArray.empty),
    (["p", "steps-c", "step-1a-x.md"], .file ByteArray.empty)]
  workingDirectory := []

/-- The steps of this workflow have the same order and the same first step when its directories are
listed the other way round. -/
theorem mixedTree_reversed :
    let reversed : FileTree := { mixedTree with entries := mixedTree.entries.reverse }
    let files := mixedTree.filesIn ⟨"/p/steps-c"⟩
    reversed.filesIn ⟨"/p/steps-c"⟩ = files.reverse ∧ files.length = 4 ∧
      sort files = sort files.reverse ∧
      first? files.reverse = some ⟨"/p/steps-c/step-1a-x.md"⟩ ∧
      detect reversed ⟨"/p"⟩ = detect mixedTree ⟨"/p"⟩ := by
  intro reversed files
  have listing : IsListing mixedTree := ⟨by decide, by decide⟩
  have relists : Relists reversed mixedTree := ⟨mixedTree.entries.reverse_perm, rfl⟩
  obtain ⟨lists, trees⟩ := steps_ignore_listing_order
  obtain ⟨sorted, first, isFirst, -⟩ := lists files files.reverse files.reverse_perm.symm
    (nodup_nameOf_filesIn listing _)
  refine ⟨by decide +kernel, by decide +kernel, sorted, ?_, trees _ _ relists listing _⟩
  rw [← first, isFirst]
  exact ⟨by decide +kernel, by decide +kernel, by decide +kernel⟩

end

end Layout

end WorkflowBundle
