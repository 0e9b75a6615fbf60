/-
This file says where the index of the knowledge base is located: which references count, and when
the index lies outside of the project.
-/

import WorkflowBundle.Proofs.FileTree.Containment
import WorkflowBundle.Proofs.FileTree.Join
import WorkflowBundle.Project.KnowledgeIndex

namespace WorkflowBundle.Project

open FileTree (Grounded LeadsOut Sealed)
open WorkflowBundle.Path (ofNames split)

/-- An index is given when there is a reference to it that is not blank. -/
def IsGiven (explicit : Option String) : Prop :=
  ∃ reference, explicit = some reference ∧ Text.isBlankText reference = false

/-- A path lies inside when it starts with the canonical path of the root. The empty root has none, and
nothing is asked of paths below it. -/
def LiesInside (tree : FileTree) (root path : Path) : Prop :=
  root.text ≠ "" → ∃ directory, tree.canonical root = .ok directory ∧
    path.startsWith directory = true

section

variable {tree : FileTree} {root path : Path} {reference : String} {explicit : Option String}

/-- An explicit index is located when its reference is relative, has no double dot, and leads to a
place that lies in the project behind all links. -/
theorem explicitIndex?_eq_some_iff :
    explicitIndex? tree root reference = some path ↔
      (Path.mk reference).isAbsolute = false ∧ Text.contains ".." reference = false ∧
        tree.canonical (root.join reference) = .ok path ∧
        path.startsWith (tree.canonicalOrSelf root) = true := by
  have leads : tree.exists? (root.join reference) = true ↔
      ∃ resolved, tree.canonical (root.join reference) = .ok resolved := by
    rw [FileTree.exists?_iff, FileTree.canonical]
    simp [Outcome.map_eq_ok_iff]
  rw [explicitIndex?]
  simp only [Option.ite_none_right_eq_some, Bool.and_eq_true, Bool.not_eq_true', leads,
    Option.some.injEq]
  constructor
  · rintro ⟨⟨⟨⟨relative, noDots⟩, resolved, located⟩, inside⟩, same⟩
    rw [FileTree.canonicalOrSelf, located] at inside same
    obtain rfl := same
    exact ⟨relative, noDots, located, inside⟩
  · rintro ⟨relative, noDots, located, inside⟩
    have same : tree.canonicalOrSelf (root.join reference) = path := by
      rw [FileTree.canonicalOrSelf, located]
    rw [same]
    exact ⟨⟨⟨⟨relative, noDots⟩, path, located⟩, inside⟩, rfl⟩

/-- A given index is located by its reference alone. -/
theorem indexPath?_of_written (written : Text.isBlankText reference = false) :
    indexPath? tree root (some reference) = explicitIndex? tree root reference := by
  rw [indexPath?, Option.filter_some, if_pos (by simpa using written)]

theorem indexPath?_of_blank (blank : Text.isBlankText reference = true) :
    indexPath? tree root (some reference) = indexPath? tree root none := by
  rw [indexPath?, Option.filter_some, if_neg (by simpa using blank)]
  rfl

/-- The index of a project without a given one is the first file at one of the places. -/
theorem indexPath?_of_not_isGiven (notGiven : ¬ IsGiven explicit) :
    indexPath? tree root explicit = (indexPlaces.map root.join).find? tree.isFile := by
  have nothing : (explicit.filter fun reference => !Text.isBlankText reference) = none := by
    rw [Option.filter_eq_none_iff]
    intro reference given
    by_contra written
    exact notGiven ⟨reference, given, by simpa using written⟩
  rw [indexPath?, nothing]

/-- The places of an index are relative and have no step to a parent. They end with a folder and the
name of a file. -/
theorem exists_split_of_mem_indexPlaces {place : String} (member : place ∈ indexPlaces) :
    (Path.mk place).isAbsolute = false ∧
      (∀ step ∈ split place.toList, Path.componentOf? step ≠ some .parent) ∧
      ∃ before folder name file, split place.toList = before ++ [folder, name] ∧
        Path.isStep folder = true ∧ Path.componentOf? name = some (.name file) := by
  have named : Path.componentOf? "index.csv".toList = some (.name "index.csv") := by decide
  simp only [indexPlaces, List.mem_cons, List.not_mem_nil, or_false] at member
  rcases member with rfl | rfl
  · exact ⟨by decide, by decide, [], "_knowledge".toList, _, _, by decide, by decide, named⟩
  · exact ⟨by decide, by decide, ["docs".toList], "knowledge".toList, _, _, by decide, by decide,
      named⟩

/-- A root below which a reference leads somewhere has a canonical path, unless it is empty. -/
theorem exists_canonical_of_join (written : root.text ≠ "")
    (relative : (Path.mk reference).isAbsolute = false)
    (located : tree.canonical (root.join reference) = .ok path) :
    ∃ directory, tree.canonical root = .ok directory := by
  obtain ⟨names, led, -⟩ := Outcome.map_eq_ok_iff.1 located
  obtain ⟨location, -, -, start, -⟩ := FileTree.exists_location_of_join written relative led
  exact ⟨_, FileTree.canonical_of_locate start⟩

/-- What starts with the root, canonical if possible, lies inside. -/
theorem liesInside_iff_of_join (relative : (Path.mk reference).isAbsolute = false)
    (located : tree.canonical (root.join reference) = .ok path) :
    LiesInside tree root path ↔ path.startsWith (tree.canonicalOrSelf root) = true := by
  by_cases written : root.text = ""
  · -- The empty path leads nowhere, and every path starts with it.
    have nowhere : tree.canonicalOrSelf root = root := by
      rw [FileTree.canonicalOrSelf, FileTree.canonical, FileTree.locate, written]
      rfl
    have nothing : root.components = [] := by
      obtain rfl : root = ⟨""⟩ := congrArg Path.mk written
      decide
    rw [nowhere, Path.startsWith, nothing]
    exact iff_of_true (fun nonempty => absurd written nonempty) rfl
  · obtain ⟨directory, canonical⟩ := exists_canonical_of_join written relative located
    rw [FileTree.canonicalOrSelf, canonical]
    constructor
    · intro inside
      obtain ⟨same, equal, starts⟩ := inside written
      exact Except.ok.inj (canonical.symm.trans equal) ▸ starts
    · exact fun starts _ => ⟨directory, canonical, starts⟩

/-- A file at one of the places lies inside unless a link in the root leads out. -/
theorem liesInside_or_leadsOut (working : Grounded tree tree.workingDirectory) {place : String}
    (member : place ∈ indexPlaces) (located : tree.canonical (root.join place) = .ok path) :
    LiesInside tree root path ∨
      ∃ directory link, tree.canonical root = .ok directory ∧ LeadsOut tree directory link := by
  obtain ⟨relative, descends, -⟩ := exists_split_of_mem_indexPlaces member
  obtain ⟨names, rfl, settled, led⟩ := FileTree.exists_names_of_canonical working located
  rw [or_iff_not_imp_right]
  intro closed written
  obtain ⟨location, left, few, start, behind⟩ :=
    FileTree.exists_location_of_join written relative led
  have grounded := FileTree.grounded_of_locate working start
  have canonical := FileTree.canonical_of_locate start
  have sealed : Sealed tree location :=
    ⟨working, grounded, FileTree.holdsDirectory_of_followLinks (Text.pieces_ne_nil _ _) behind,
      fun link leads => closed ⟨_, link, canonical, leads⟩⟩
  have within := sealed.prefix_of_followLinks few grounded (List.prefix_refl location)
    (fun _ => Path.clean_of_mem_split) descends behind
  exact ⟨_, canonical, (Path.startsWith_ofNames_iff settled.named grounded.named).2 within⟩

/-- An explicit index is a canonical path that lies inside. -/
theorem exists_names_of_explicitIndex? (working : Grounded tree tree.workingDirectory)
    (found : explicitIndex? tree root reference = some path) :
    ∃ names, path = ofNames names ∧ Grounded tree names ∧ LiesInside tree root path := by
  obtain ⟨relative, -, located, starts⟩ := explicitIndex?_eq_some_iff.1 found
  obtain ⟨names, same, grounded, -⟩ := FileTree.exists_names_of_canonical working located
  exact ⟨names, same, grounded, (liesInside_iff_of_join relative located).2 starts⟩

end

/-- The index that is located is a file or, if it was given, a directory. Its canonical path lies inside
that of the root or, if it was not given, a link in the root leads out. -/
theorem located_index_lies_inside_unless_linked {tree : FileTree}
    (working : Grounded tree tree.workingDirectory) {root path : Path} {explicit : Option String}
    (found : indexPath? tree root explicit = some path) :
    ∃ resolved, tree.canonical path = .ok resolved ∧
      (tree.isFile path = true ∨ IsGiven explicit ∧ tree.isDirectory path = true) ∧
      (LiesInside tree root resolved ∨ ¬ IsGiven explicit ∧
        ∃ directory link, tree.canonical root = .ok directory ∧ LeadsOut tree directory link) := by
  by_cases given : IsGiven explicit
  · obtain ⟨reference, rfl, nonblank⟩ := given
    rw [indexPath?_of_written nonblank] at found
    obtain ⟨names, rfl, grounded, inside⟩ := exists_names_of_explicitIndex? working found
    refine ⟨ofNames names, FileTree.canonical_ofNames grounded, ?_, .inl inside⟩
    exact grounded.isFile_or_isDirectory.imp_right fun isDirectory =>
      ⟨⟨reference, rfl, nonblank⟩, isDirectory⟩
  · rw [indexPath?_of_not_isGiven given] at found
    obtain ⟨place, member, rfl⟩ := List.mem_map.1 (List.mem_of_find?_eq_some found)
    have isFile := List.find?_some found
    obtain ⟨names, content, led, -⟩ := FileTree.exists_location_of_isFile isFile
    have located := FileTree.canonical_of_locate led
    exact ⟨ofNames names, located, .inl isFile,
      (liesInside_or_leadsOut working member located).imp_right (⟨given, ·⟩)⟩

/-- In this tree the project is in one directory. Its index is a link to a file in the other one, and
its knowledge base is a directory. -/
def linkedTree : FileTree where
  entries :=
    [(["p"], .directory), (["p", "_knowledge"], .directory),
      (["p", "_knowledge", "index.csv"], .link ⟨"../../notes/index.csv"⟩),
      (["p", "kb"], .directory), (["notes"], .directory),
      (["notes", "index.csv"], .file ⟨"".toUTF8.data⟩)]
  workingDirectory := []

/-- The locations of the project and of its two indexes. -/
theorem located_linkedTree :
    linkedTree.canonical ⟨"/p"⟩ = .ok ⟨"/p"⟩ ∧
      indexPath? linkedTree ⟨"/p"⟩ none = some ⟨"/p/_knowledge/index.csv"⟩ ∧
      linkedTree.canonical ⟨"/p/_knowledge/index.csv"⟩ = .ok ⟨"/notes/index.csv"⟩ ∧
      indexPath? linkedTree ⟨"/p"⟩ (some "kb") = some ⟨"/p/kb"⟩ ∧
      linkedTree.isFile ⟨"/p/kb"⟩ = false := by
  decide +kernel

/-- The index that was not given is a link that leads out, and the one that was given is a
directory. -/
theorem linked_index_is_located :
    (∃ link, LeadsOut linkedTree ⟨"/p"⟩ link) ∧ linkedTree.isDirectory ⟨"/p/kb"⟩ = true := by
  obtain ⟨root, found, target, given, noFile⟩ := located_linkedTree
  constructor
  · obtain ⟨resolved, located, -, placed⟩ := located_index_lies_inside_unless_linked .root found
    obtain rfl := Except.ok.inj (target.symm.trans located)
    rcases placed with inside | ⟨-, directory, link, canonical, leads⟩
    · obtain ⟨directory, canonical, starts⟩ := inside (by decide)
      obtain rfl := Except.ok.inj (root.symm.trans canonical)
      exact absurd starts (by decide)
    · obtain rfl := Except.ok.inj (root.symm.trans canonical)
      exact ⟨link, leads⟩
  · obtain ⟨-, -, isFile | ⟨-, isDirectory⟩, -⟩ :=
      located_index_lies_inside_unless_linked .root given
    · nomatch noFile.symm.trans isFile
    · exact isDirectory

/-- The index that is located can lie outside of the project, and it can be a directory. -/
theorem located_index_lies_outside :
    (¬ ∀ (tree : FileTree) (root path : Path) (explicit : Option String),
      Grounded tree tree.workingDirectory → indexPath? tree root explicit = some path →
      ∀ directory resolved, tree.canonical root = .ok directory →
        tree.canonical path = .ok resolved → resolved.startsWith directory = true) ∧
    ¬ ∀ (tree : FileTree) (root path : Path) (explicit : Option String),
      Grounded tree tree.workingDirectory → indexPath? tree root explicit = some path →
      tree.isFile path = true := by
  obtain ⟨root, found, target, given, noFile⟩ := located_linkedTree
  constructor
  · intro contained
    have inside := contained linkedTree _ _ none .root found _ _ root target
    exact absurd inside (by decide)
  · intro regular
    nomatch noFile.symm.trans (regular linkedTree _ _ (some "kb") .root given)

end WorkflowBundle.Project
