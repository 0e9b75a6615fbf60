/-
This file shows that the order in which a tree lists its entries does not matter for where its paths
lead, and only orders the files of a directory.
-/

import Mathlib.Data.List.Nodup
import WorkflowBundle.FileTree.Resolve
import WorkflowBundle.Proofs.Path.Join

namespace WorkflowBundle

open WorkflowBundle.Path (IsFileName)

theorem Path.fileName?_join {name : String} (named : IsFileName name) (base : Path) :
    (base.join name).fileName? = some name := by
  have relative : (Path.mk name).isAbsolute = false := by
    rw [isAbsolute, beq_eq_false_iff_ne]
    exact fun slash => named.2.1 (List.mem_of_head? slash)
  obtain ⟨before, pieces⟩ := exists_pieces_join base relative
  obtain ⟨lead, components⟩ := exists_components (base.join name)
  rw [pieces, split_of_clean named.2.1, List.filterMap_append,
    List.filterMap_cons_some (componentOf?_of_isFileName named), List.filterMap_nil,
    ← List.append_assoc] at components
  rw [fileName?, components, List.getLast?_concat]

namespace FileTree

/-- Another listing of a tree has the same entries in any order. -/
structure Relists (other tree : FileTree) : Prop where
  entries : other.entries.Perm tree.entries
  workingDirectory : other.workingDirectory = tree.workingDirectory

/-- A tree is a listing when it has one entry for each location, and locations are file names. -/
structure IsListing (tree : FileTree) : Prop where
  distinct : (tree.entries.map Prod.fst).Nodup
  named : ∀ entry ∈ tree.entries, ∀ name ∈ entry.1, IsFileName name

/-- In a list with one value for each key a value is found exactly by its key. -/
theorem lookup_eq_some_iff_mem {α β : Type} [BEq α] [LawfulBEq α] {entries : List (α × β)}
    {key : α} {value : β} (distinct : (entries.map Prod.fst).Nodup) :
    entries.lookup key = some value ↔ (key, value) ∈ entries := by
  induction entries with
  | nil => simp
  | cons entry rest inductionHypothesis =>
      obtain ⟨first, held⟩ := entry
      obtain ⟨absent, later⟩ := List.nodup_cons.1 distinct
      have behind := inductionHypothesis later
      rw [List.lookup_cons, List.mem_cons, Prod.mk.injEq]
      by_cases same : key = first
      · subst same
        have missing : (key, value) ∉ rest :=
          fun member => absent (List.mem_map.2 ⟨(key, value), member, rfl⟩)
        simp [missing, eq_comm]
      · simpa [beq_eq_false_iff_ne.2 same, same] using behind

section

variable {tree other : FileTree}

/-- Another listing has the same entry at every location. -/
theorem Relists.entry_eq (relists : Relists other tree) (listing : IsListing tree) :
    other.entry? = tree.entry? := by
  have distinct : (other.entries.map Prod.fst).Nodup :=
    (relists.entries.map Prod.fst).nodup_iff.2 listing.distinct
  funext location
  rw [FileTree.entry?, FileTree.entry?]
  split
  · rfl
  · apply Option.ext
    intro entry
    rw [lookup_eq_some_iff_mem distinct, lookup_eq_some_iff_mem listing.distinct,
      relists.entries.mem_iff]

/-- Ways through a tree depend on the entries of its locations only. -/
theorem follow_eq (same : other.entry? = tree.entry?) : follow other = follow tree := by
  funext location steps
  induction steps generalizing location with
  | nil => rfl
  | cons step rest inductionHypothesis =>
      rw [follow, follow, holdsDirectory, holdsDirectory, same]
      simp only [inductionHypothesis]

/-- Ways with links depend on the entries of its locations only. -/
theorem followLinks_eq (same : other.entry? = tree.entry?) :
    followLinks other = followLinks tree := by
  funext links location steps
  induction links generalizing location steps with
  | zero => rw [followLinks, followLinks, follow_eq same]
  | succ links inductionHypothesis =>
      rw [followLinks, followLinks, follow_eq same]
      simp only [inductionHypothesis]

/-- In another listing every path leads to the same location. -/
theorem Relists.locate_eq (relists : Relists other tree) (listing : IsListing tree) (path : Path) :
    other.locate path = tree.locate path := by
  rw [locate, locate, followLinks_eq (relists.entry_eq listing), relists.workingDirectory]

theorem Relists.entryAt?_eq (relists : Relists other tree) (listing : IsListing tree)
    (path : Path) : other.entryAt? path = tree.entryAt? path := by
  rw [entryAt?, entryAt?, relists.locate_eq listing, relists.entry_eq listing]

theorem Relists.isFile_eq (relists : Relists other tree) (listing : IsListing tree) :
    other.isFile = tree.isFile := by
  funext path
  rw [isFile, isFile, relists.entryAt?_eq listing]

theorem Relists.isDirectory_eq (relists : Relists other tree) (listing : IsListing tree) :
    other.isDirectory = tree.isDirectory := by
  funext path
  rw [isDirectory, isDirectory, relists.entryAt?_eq listing]

/-- A directory of another listing has the same files in some order. -/
theorem Relists.filesIn_perm (relists : Relists other tree) (listing : IsListing tree)
    (directory : Path) : (other.filesIn directory).Perm (tree.filesIn directory) := by
  rw [filesIn, filesIn, relists.locate_eq listing]
  cases tree.locate directory with
  | error _ => exact .refl _
  | ok location =>
      have children : (other.children location).Perm (tree.children location) :=
        relists.entries.filterMap _
      have same : other.holdsDirectory location = tree.holdsDirectory location := by
        rw [holdsDirectory, holdsDirectory, relists.entry_eq listing]
      dsimp only
      rw [same, relists.isFile_eq listing]
      split
      · exact (children.map _).filter _
      · exact .refl _

theorem IsListing.children (listing : IsListing tree) (location : List String) :
    (tree.children location).Nodup ∧ ∀ name ∈ tree.children location, IsFileName name := by
  let childOf (names : List String) : Option String :=
    if names.dropLast == location then names.getLast? else none
  have whole : ∀ names name, name ∈ childOf names → names = location ++ [name] := by
    intro names name child
    simp only [childOf] at child
    split at child
    · rename_i parent
      rw [← eq_of_beq parent, List.dropLast_append_getLast? name child]
    · nomatch child
  have shape : tree.children location = (tree.entries.map Prod.fst).filterMap childOf := by
    rw [List.filterMap_map]
    rfl
  rw [shape]
  constructor
  · apply List.Nodup.filterMap _ listing.distinct
    intro first second name firstChild secondChild
    rw [whole first name firstChild, whole second name secondChild]
  · intro name member
    obtain ⟨names, inside, child⟩ := List.mem_filterMap.1 member
    obtain ⟨entry, present, rfl⟩ := List.mem_map.1 inside
    apply listing.named entry present
    rw [whole entry.1 name child]
    exact List.mem_append_right _ List.mem_cons_self

theorem IsListing.exists_names_of_filesIn (listing : IsListing tree) (directory : Path) :
    ∃ names : List String, names.Nodup ∧
      (tree.filesIn directory).map Path.fileName? = names.map some := by
  rw [filesIn]
  cases tree.locate directory with
  | error _ => exact ⟨[], List.nodup_nil, rfl⟩
  | ok location =>
      obtain ⟨distinct, named⟩ := listing.children location
      dsimp only
      split
      · have own : ((tree.children location).map directory.join).map Path.fileName? =
            (tree.children location).map some := by
          rw [List.map_map]
          exact List.map_congr_left fun name member => Path.fileName?_join (named name member) _
        have part : ((((tree.children location).map directory.join).filter tree.isFile).map
            Path.fileName?).Sublist ((tree.children location).map some) :=
          own ▸ List.filter_sublist.map Path.fileName?
        obtain ⟨names, kept, same⟩ := List.sublist_map_iff.1 part
        exact ⟨names, kept.nodup distinct, same⟩
      · exact ⟨[], List.nodup_nil, rfl⟩

end

end FileTree

end WorkflowBundle
