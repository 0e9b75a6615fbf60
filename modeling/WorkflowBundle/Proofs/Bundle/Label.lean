/-
This file shows that the labels of context files tell the files apart: below the project root they are
relative and lead back to the file from there, and anywhere else they are the full path.
-/

import WorkflowBundle.Bundle.Assemble
import WorkflowBundle.Proofs.FileTree.Location
import WorkflowBundle.Proofs.Path.Relative

namespace WorkflowBundle.Bundle

open FileTree (Grounded)
open WorkflowBundle.Path (IsFileName below ofNames)

section

variable {tree : FileTree} {root : Path} {location names : List String}

/-- The components of a root that a path of names starts with are some of the first names. -/
theorem exists_front_of_startsWith (named : ∀ name ∈ names, IsFileName name)
    (absolute : root.isAbsolute = true) (starts : (ofNames names).startsWith root = true) :
    ∃ front, front <+: names ∧ root.components = .root :: front.map .name := by
  have inside := List.isPrefixOf_iff_prefix.1 starts
  obtain ⟨components, -⟩ := Path.components_of_isAbsolute absolute
  rw [Path.components_ofNames named, components, List.cons_prefix_cons] at inside
  obtain ⟨front, first, same⟩ := List.prefix_map_iff.1 inside.2
  exact ⟨front, first, by rw [components, same]⟩

/-- An absolute root with the components of a grounded location leads to it, if it leads anywhere. -/
theorem location_eq_of_components (absolute : root.isAbsolute = true)
    (located : tree.locate root = .ok location) (grounded : Grounded tree names)
    (components : root.components = .root :: names.map .name) : location = names := by
  obtain ⟨steps, -⟩ := Path.components_of_isAbsolute absolute
  have body : FileTree.stepsOf root = root.body := by
    rw [FileTree.stepsOf, Path.body, absolute]
    rfl
  rw [steps] at components
  rw [FileTree.locate_of_isAbsolute absolute, body] at located
  have followed := @FileTree.follow_of_components tree [] names root.body grounded
    (List.cons.inj components).2
  rcases FileTree.followLinks_eq_ok_iff.1 located with ends | ⟨_, _, _, _, -, interrupted, -⟩
  · simpa [ends] using followed
  · simp [interrupted] at followed

/-- Only a root that is written by the names of its location, up to repeated slashes and single dots, is
a beginning of a canonical path. -/
theorem prefix_of_startsWith (absolute : root.isAbsolute = true)
    (located : tree.locate root = .ok location) (grounded : Grounded tree names)
    (starts : (ofNames names).startsWith root = true) :
    location <+: names ∧ root.components = .root :: location.map .name := by
  obtain ⟨front, inside, components⟩ :=
    exists_front_of_startsWith grounded.named absolute starts
  have same := location_eq_of_components absolute located (grounded.of_prefix inside) components
  exact same ▸ ⟨inside, components⟩

/-- A canonical path in the project is shown by its names below the root, whichever form of the root is
taken off. -/
theorem displayPath_inside {more : List String} (absolute : root.isAbsolute = true)
    (located : tree.locate root = .ok location) (grounded : Grounded tree (location ++ more)) :
    displayPath tree root (ofNames (location ++ more)) = (below more).text := by
  obtain ⟨named, moreNamed⟩ := List.forall_mem_append.1 grounded.named
  have canonical := FileTree.canonical_of_locate located
  rw [displayPath]
  split
  · rename_i relative asWritten
    have starts : (ofNames (location ++ more)).startsWith root = true := by
      by_contra apart
      rw [Path.relativeTo?, if_neg apart] at asWritten
      cases asWritten
    obtain ⟨-, components⟩ := prefix_of_startsWith absolute located grounded starts
    rw [Path.relativeTo?_ofNames named moreNamed components] at asWritten
    rw [Option.some.inj asWritten]
  · have resolved := Path.relativeTo?_ofNames named moreNamed (Path.components_ofNames named)
    simp only [canonical, Except.toOption, Option.bind_some, resolved]

/-- A canonical path outside of the project is shown in full. -/
theorem displayPath_outside (absolute : root.isAbsolute = true)
    (located : tree.locate root = .ok location) (grounded : Grounded tree names)
    (outside : ¬ location <+: names) :
    displayPath tree root (ofNames names) = (ofNames names).text := by
  have rootGrounded := FileTree.grounded_of_isAbsolute absolute located
  have canonical := FileTree.canonical_of_locate located
  have asWritten : (ofNames names).relativeTo? root = none := by
    rw [Path.relativeTo?, if_neg]
    exact fun starts => outside (prefix_of_startsWith absolute located grounded starts).1
  have resolved : (ofNames names).relativeTo? (ofNames location) = none := by
    rw [Path.relativeTo?, if_neg]
    rwa [Path.startsWith_ofNames_iff grounded.named rootGrounded.named]
  simp only [displayPath, asWritten, canonical, Except.toOption, Option.bind_some, resolved]

/-- Different canonical paths are shown differently. -/
theorem eq_of_displayPath_eq {others : List String} (absolute : root.isAbsolute = true)
    (located : tree.locate root = .ok location) (grounded : Grounded tree names)
    (otherGrounded : Grounded tree others)
    (same : displayPath tree root (ofNames names) = displayPath tree root (ofNames others)) :
    names = others := by
  -- A path is shown as a relative path exactly when it is inside, so both are inside or none is.
  have apart {more others : List String} (inside : Grounded tree (location ++ more))
      (grounded : Grounded tree others) (outside : ¬ location <+: others) :
      displayPath tree root (ofNames (location ++ more)) ≠
        displayPath tree root (ofNames others) := by
    rw [displayPath_inside absolute located inside,
      displayPath_outside absolute located grounded outside]
    intro equal
    have same : below more = ofNames others := congrArg Path.mk equal
    have relative := Path.isAbsolute_below (List.forall_mem_append.1 inside.named).2
    rw [same, Path.isAbsolute_ofNames] at relative
    cases relative
  by_cases first : location <+: names
  · obtain ⟨more, rfl⟩ := first
    by_cases second : location <+: others
    · obtain ⟨rest, rfl⟩ := second
      rw [displayPath_inside absolute located grounded,
        displayPath_inside absolute located otherGrounded] at same
      exact congrArg _ (Path.eq_of_below_eq (List.forall_mem_append.1 grounded.named).2
        (List.forall_mem_append.1 otherGrounded.named).2 same)
    · exact absurd same (apart grounded otherGrounded second)
  · by_cases second : location <+: others
    · obtain ⟨rest, rfl⟩ := second
      exact absurd same.symm (apart otherGrounded grounded first)
    · rw [displayPath_outside absolute located grounded first,
        displayPath_outside absolute located otherGrounded second] at same
      exact Path.eq_of_ofNames_eq grounded.named otherGrounded.named (congrArg Path.mk same)

end

/-- For an absolute root that exists, and the canonical path of a file, the label of the file is relative
if and only if the file lies in the canonical root. It then leads from there back to the file: joined to
the canonical root it has the components of the path, and it is this path unless it is the root itself.
Different canonical paths have different labels. -/
theorem label_tells_canonical_path {tree : FileTree} {root directory path : Path}
    (absolute : root.isAbsolute = true) (located : tree.canonical root = .ok directory)
    (canonical : tree.canonical path = .ok path) :
    ((Path.mk (displayPath tree root path)).isAbsolute = false ↔
        path.startsWith directory = true) ∧
      (path.startsWith directory = true →
        (directory.join (displayPath tree root path)).sameAs path = true ∧
          (path ≠ directory → directory.join (displayPath tree root path) = path)) ∧
      ∀ other, tree.canonical other = .ok other → other ≠ path →
        displayPath tree root other ≠ displayPath tree root path := by
  obtain ⟨location, led, rfl⟩ := Outcome.map_eq_ok_iff.1 located
  obtain ⟨names, rfl, grounded⟩ := FileTree.exists_names_of_canonical_self canonical
  have rootGrounded := FileTree.grounded_of_isAbsolute absolute led
  rw [Path.startsWith_ofNames_iff grounded.named rootGrounded.named]
  refine ⟨?_, ?_, ?_⟩
  · by_cases inside : location <+: names
    · obtain ⟨more, rfl⟩ := inside
      rw [displayPath_inside absolute led grounded]
      exact iff_of_true (Path.isAbsolute_below (List.forall_mem_append.1 grounded.named).2)
        (List.prefix_append location more)
    · rw [displayPath_outside absolute led grounded inside]
      refine iff_of_false ?_ inside
      rw [Path.isAbsolute_ofNames]
      nofun
  · rintro ⟨more, rfl⟩
    obtain ⟨named, moreNamed⟩ := List.forall_mem_append.1 grounded.named
    rw [displayPath_inside absolute led grounded]
    constructor
    · rw [Path.sameAs, beq_iff_eq,
        Path.components_join_below (Path.isAbsolute_ofNames location) moreNamed,
        Path.components_ofNames named, Path.components_ofNames grounded.named, List.map_append,
        List.cons_append]
    · intro further
      apply Path.join_below named moreNamed
      rintro rfl
      exact further (by rw [List.append_nil])
  · intro other otherCanonical different same
    obtain ⟨others, rfl, otherGrounded⟩ := FileTree.exists_names_of_canonical_self otherCanonical
    exact different (congrArg ofNames (eq_of_displayPath_eq absolute led otherGrounded grounded same))

/-- In this tree the project is reached by its name and by a link, and a note lies beside it. -/
def labelledTree : FileTree where
  entries :=
    [(["app"], .directory), (["app", "docs"], .directory),
      (["app", "docs", "a.md"], .file ⟨"Ask.".toUTF8.data⟩), (["link"], .link ⟨"app"⟩),
      (["a.md"], .file ⟨"Note.".toUTF8.data⟩)]
  workingDirectory := []

/-- Through the link and with steps to the parent, a file of the project is shown below the root, and
apart from the note of the same name. -/
theorem label_below_linked_root :
    let root : Path := ⟨"/app/./docs/../../link/"⟩
    labelledTree.canonical root = .ok ⟨"/app"⟩ ∧
      (Path.mk "/app").join (displayPath labelledTree root ⟨"/app/docs/a.md"⟩) =
        ⟨"/app/docs/a.md"⟩ ∧
      displayPath labelledTree root ⟨"/a.md"⟩ ≠
        displayPath labelledTree root ⟨"/app/docs/a.md"⟩ := by
  intro root
  have located : labelledTree.canonical root = .ok ⟨"/app"⟩ := by decide +kernel
  have file : labelledTree.canonical ⟨"/app/docs/a.md"⟩ = .ok ⟨"/app/docs/a.md"⟩ := by
    decide +kernel
  have note : labelledTree.canonical ⟨"/a.md"⟩ = .ok ⟨"/a.md"⟩ := by decide +kernel
  obtain ⟨-, inside, apart⟩ := label_tells_canonical_path (by decide) located file
  exact ⟨located, (inside (by decide)).2 (by decide), apart _ note (by decide)⟩

end WorkflowBundle.Bundle
