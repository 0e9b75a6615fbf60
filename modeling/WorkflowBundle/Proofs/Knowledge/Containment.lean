/-
This file shows that the texts of a library are taken from files in the directory of its index.
-/

import WorkflowBundle.Knowledge.Loader
import WorkflowBundle.Proofs.Knowledge.Index
import WorkflowBundle.Proofs.Knowledge.Row
import WorkflowBundle.Proofs.Knowledge.Selection
import WorkflowBundle.Proofs.Project.KnowledgeIndex

namespace WorkflowBundle

open FileTree (Grounded)

namespace Project

/-- The directory of an index that can be read has a text. -/
theorem exists_parent_of_indexPath? {tree : FileTree}
    (working : Grounded tree tree.workingDirectory) {root path : Path} {explicit : Option String}
    (found : indexPath? tree root explicit = some path) {text : String}
    (read : tree.read path = .ok text) : ∃ parent, path.parent? = some parent ∧ parent.text ≠ "" := by
  by_cases given : IsGiven explicit
  · obtain ⟨reference, rfl, written⟩ := given
    rw [indexPath?_of_written written] at found
    obtain ⟨-, -, resolved, -⟩ := explicitIndex?_eq_some_iff.1 found
    obtain ⟨names, rfl, grounded, -⟩ := FileTree.exists_names_of_canonical working resolved
    obtain ⟨location, content, located, present⟩ := FileTree.exists_location_of_read read
    obtain rfl := Except.ok.inj ((FileTree.locate_ofNames grounded).symm.trans located)
    have below : names ≠ [] := by
      rintro rfl
      simp [FileTree.entry?] at present
    refine ⟨_, Path.parent?_ofNames below grounded.named, ?_⟩
    simp [Path.ofNames]
  · rw [indexPath?_of_not_isGiven given] at found
    obtain ⟨place, member, rfl⟩ := List.mem_map.1 (List.mem_of_find?_eq_some found)
    obtain ⟨relative, -, before, folder, name, file, shape, step, named⟩ :=
      exists_split_of_mem_indexPlaces member
    obtain ⟨front, pieces⟩ := Path.exists_pieces_join root relative
    rw [shape, ← List.append_assoc] at pieces
    exact Path.exists_parent_of_pieces pieces step named

end Project

namespace Bundle

theorem truncate_empty (budget : Nat) : truncate "" budget = "" := by
  have none : estimateTokens "" = 0 := by decide
  rw [truncate, none, if_pos (Nat.zero_le budget)]

end Bundle

namespace KnowledgeIndex

/-- The fragments that are read from a table have files that do not escape. -/
theorem accepted_of_parse {text : String} {path : Path} {index : KnowledgeIndex}
    (parsed : parse text path = .ok index) :
    index.path = path ∧ (index.fragments.map Fragment.id).Nodup ∧
      ∀ fragment ∈ index.fragments, Escape.ofReference? fragment.file = none := by
  obtain ⟨fragments, rfl, accepted⟩ : ∃ fragments, ofFragments path fragments = index ∧
      ∀ fragment ∈ fragments, Escape.ofReference? fragment.file = none := by
    rw [parse] at parsed
    split at parsed
    · exact ⟨[], Except.ok.inj parsed, nofun⟩
    · dsimp only at parsed
      split at parsed
      · obtain ⟨rows, -, same⟩ := Outcome.map_eq_ok_iff.1 parsed
        refine ⟨_, same, fun fragment member => ?_⟩
        obtain ⟨row, -, read⟩ := List.mem_filterMap.1 member
        exact (fragment?_eq_some_iff_readRow.1 read).2.2.2
      · nomatch parsed
  refine ⟨rfl, nodup_keepFirst fragments, fun fragment member => ?_⟩
  exact accepted fragment ((keepFirst_sublist fragments).subset member)

end KnowledgeIndex

namespace Knowledge

/-- An excerpt is the content of a file that is taken for a fragment. -/
structure Excerpt where
  fragment : Fragment
  file : Path
  content : String

/-- The text of an excerpt is its content behind a comment with the name of the fragment. -/
def Excerpt.text (excerpt : Excerpt) : String :=
  s!"<!-- KNOWLEDGE: {excerpt.fragment.displayName} -->\n" ++ excerpt.content

/-- An excerpt is taken inside when the reference of a fragment of the index leads to a regular file
with this content, whose canonical path lies in that of the directory of the index. -/
structure Excerpt.IsTakenInside (tree : FileTree) (index : KnowledgeIndex) (excerpt : Excerpt) :
    Prop where
  listed : excerpt.fragment ∈ index.fragments
  led : tree.canonical (index.directory.join excerpt.fragment.file) = .ok excerpt.file
  canonical : tree.canonical excerpt.file = .ok excerpt.file
  regular : tree.isFile excerpt.file = true
  inside : ∃ directory, tree.canonical index.directory = .ok directory ∧
    excerpt.file.startsWith directory = true
  read : tree.read excerpt.file = .ok excerpt.content

/-- A text joins the excerpts that can be taken inside for some fragments. -/
def JoinsExcerpts (tree : FileTree) (index : KnowledgeIndex) (fragments : List Fragment)
    (text : String) : Prop :=
  ∃ excerpts : List Excerpt,
    (∀ excerpt, excerpt ∈ excerpts ↔
      excerpt.fragment ∈ fragments ∧ excerpt.IsTakenInside tree index) ∧
    text = Text.join "\n\n" (excerpts.map Excerpt.text)

namespace Library

/-- A library is guarded when its fragments have different identifiers and files that do not escape,
and its directory has a text if there are fragments. -/
structure IsGuarded (library : Library) : Prop where
  distinct : (library.index.fragments.map Fragment.id).Nodup
  accepted : ∀ fragment ∈ library.index.fragments, Escape.ofReference? fragment.file = none
  written : ∀ fragment ∈ library.index.fragments, library.index.directory.text ≠ ""

section

variable {tree : FileTree} {library : Library} {fragment : Fragment} {excerpt : Excerpt}

/-- The library of a project is guarded and has the configured budget. -/
theorem isGuarded_of_ofProject (working : Grounded tree tree.workingDirectory) {root : Path}
    {settings : KnowledgeSettings} (opened : ofProject tree root settings = .ok (some library)) :
    library.IsGuarded ∧ library.budget = some settings.maxTokens := by
  rw [ofProject] at opened
  split at opened
  · nomatch opened
  · rename_i path found
    obtain ⟨index, loaded, same⟩ := Outcome.map_eq_ok_iff.1 opened
    obtain rfl := Option.some.inj same
    refine ⟨?_, rfl⟩
    rw [KnowledgeIndex.load] at loaded
    split at loaded
    · rename_i text read
      obtain ⟨rfl, distinct, accepted⟩ := KnowledgeIndex.accepted_of_parse loaded
      obtain ⟨parent, above, written⟩ := Project.exists_parent_of_indexPath? working found read
      refine ⟨distinct, accepted, fun _ _ => ?_⟩
      rw [KnowledgeIndex.directory, above]
      exact written
    · obtain rfl := Except.ok.inj loaded
      exact ⟨List.nodup_nil, nofun, nofun⟩

def excerpt? (tree : FileTree) (library : Library) (fragment : Fragment) : Option Excerpt :=
  (library.filePath? tree fragment).bind fun path =>
    (tree.read path).toOption.map fun content => ⟨fragment, path, content⟩

theorem text?_eq_map (tree : FileTree) (library : Library) (fragment : Fragment) :
    library.text? tree fragment = (library.excerpt? tree fragment).map Excerpt.text := by
  rw [text?, excerpt?, Option.map_bind]
  refine congrArg _ (funext fun path => ?_)
  rw [Function.comp_apply, Option.map_map, Option.map_eq_bind]
  rfl

/-- The excerpt of a fragment of a guarded library is the one that can be taken inside. -/
theorem excerpt?_eq_some_iff (working : Grounded tree tree.workingDirectory)
    (guarded : library.IsGuarded) (listed : fragment ∈ library.index.fragments) :
    library.excerpt? tree fragment = some excerpt ↔
      excerpt.fragment = fragment ∧ excerpt.IsTakenInside tree library.index := by
  rw [excerpt?, Option.bind_eq_some_iff]
  simp only [Option.map_eq_some_iff, Outcome.toOption_eq_some_iff, filePath?_eq_some_iff]
  constructor
  · rintro ⟨path, ⟨led, inside⟩, content, read, rfl⟩
    -- The reference is relative, so the directory it is joined to leads somewhere.
    obtain ⟨relative, -⟩ := Path.relative_of_ofReference? (guarded.accepted fragment listed)
    obtain ⟨names, rfl, grounded, located⟩ := FileTree.exists_names_of_canonical working led
    obtain ⟨location, -, -, start, -⟩ :=
      FileTree.exists_location_of_join (guarded.written fragment listed) relative located
    have directory := FileTree.canonical_of_locate start
    rw [FileTree.canonicalOrSelf, directory] at inside
    exact ⟨rfl, {
      listed
      led
      canonical := FileTree.canonical_ofNames grounded
      regular := FileTree.isFile_of_read read
      inside := ⟨_, directory, inside⟩
      read }⟩
  · rintro ⟨rfl, taken⟩
    obtain ⟨directory, located, inside⟩ := taken.inside
    refine ⟨excerpt.file, ⟨taken.led, ?_⟩, excerpt.content, taken.read, rfl⟩
    rw [FileTree.canonicalOrSelf, located]
    exact inside

/-- The texts of some fragments of a guarded library join the excerpts that can be taken inside. -/
theorem joinsExcerpts_concatenate (working : Grounded tree tree.workingDirectory)
    (guarded : library.IsGuarded) {fragments : List Fragment}
    (listed : fragments ⊆ library.index.fragments) :
    JoinsExcerpts tree library.index fragments (library.concatenate tree fragments) := by
  refine ⟨fragments.filterMap (library.excerpt? tree), fun excerpt => ?_, ?_⟩
  · rw [List.mem_filterMap]
    constructor
    · rintro ⟨fragment, member, found⟩
      obtain ⟨rfl, taken⟩ := (excerpt?_eq_some_iff working guarded (listed member)).1 found
      exact ⟨member, taken⟩
    · rintro ⟨member, taken⟩
      exact ⟨excerpt.fragment, member,
        (excerpt?_eq_some_iff working guarded taken.listed).2 ⟨rfl, taken⟩⟩
  · rw [concatenate, List.map_filterMap]
    exact congrArg (Text.join "\n\n") (List.filterMap_congr fun fragment _ => text?_eq_map ..)

theorem withIds_subset (index : KnowledgeIndex) (ids : List String) :
    index.withIds ids ⊆ index.fragments := by
  intro fragment member
  obtain ⟨id, -, found⟩ := List.mem_filterMap.1 member
  exact List.mem_of_find?_eq_some found

theorem selected_subset (library : Library) (selectors excluded : List String) :
    library.selected selectors excluded ⊆ library.index.fragments := by
  intro fragment member
  have kept := (KnowledgeIndex.keepFirst_sublist _).subset member
  rcases List.mem_append.1 (List.mem_of_mem_filter kept) with byId | byTag
  · exact withIds_subset _ _ byId
  · exact List.mem_of_mem_filter byTag

/-- The text of a workflow is the joined text of its selection, cut to the budget. -/
theorem textOfWorkflow_eq_truncate {budget : Nat} (limited : library.budget = some budget)
    (tree : FileTree) (workflow : String) (flags : Flags) :
    library.textOfWorkflow tree workflow flags =
      Bundle.truncate (library.concatenate tree
        (library.selected (selectorsFor library.selectors workflow) flags.excludedTags)) budget := by
  rw [textOfWorkflow]
  split
  · rename_i none
    rw [none, selected_nil]
    exact (Bundle.truncate_empty budget).symm
  · rw [limited]

end

/-- Every text that the library of a project takes from a file is the content of a regular file whose
canonical path lies in that of the directory of the index: the text of a fragment, and the joined
texts of fragments by identifiers, by tags and for a workflow. -/
theorem texts_are_taken_inside {tree : FileTree} (working : Grounded tree tree.workingDirectory)
    {root : Path} {settings : KnowledgeSettings} {library : Library}
    (opened : ofProject tree root settings = .ok (some library)) :
    (∀ id text, library.fragmentText? tree id = some text ↔
      ∃ excerpt : Excerpt, excerpt.IsTakenInside tree library.index ∧ excerpt.fragment.id = id ∧
        text = excerpt.text) ∧
    (∀ ids excluded, JoinsExcerpts tree library.index
      ((library.index.withIds ids).filter fun fragment => !fragment.hasAnyTag excluded)
      (library.textOfIds tree ids excluded)) ∧
    (∀ tags excluded, JoinsExcerpts tree library.index (library.index.withTags tags excluded)
      (library.textOfTags tree tags excluded)) ∧
    ∀ workflow flags, ∃ text, JoinsExcerpts tree library.index
        (library.selected (selectorsFor library.selectors workflow) flags.excludedTags) text ∧
      library.textOfWorkflow tree workflow flags = Bundle.truncate text settings.maxTokens := by
  obtain ⟨guarded, limited⟩ := isGuarded_of_ofProject working opened
  refine ⟨fun id text => ?_, fun ids excluded => ?_, fun tags excluded => ?_,
    fun workflow flags => ?_⟩
  · rw [fragmentText?, Option.bind_eq_some_iff]
    simp only [KnowledgeIndex.find?_eq_some_iff guarded.distinct, text?_eq_map,
      Option.map_eq_some_iff]
    constructor
    · rintro ⟨fragment, ⟨listed, rfl⟩, excerpt, found, rfl⟩
      obtain ⟨rfl, taken⟩ := (excerpt?_eq_some_iff working guarded listed).1 found
      exact ⟨excerpt, taken, rfl, rfl⟩
    · rintro ⟨excerpt, taken, rfl, rfl⟩
      exact ⟨excerpt.fragment, ⟨taken.listed, rfl⟩, excerpt,
        (excerpt?_eq_some_iff working guarded taken.listed).2 ⟨rfl, taken⟩, rfl⟩
  · exact joinsExcerpts_concatenate working guarded fun fragment member =>
      withIds_subset _ _ (List.mem_of_mem_filter member)
  · exact joinsExcerpts_concatenate working guarded fun fragment => List.mem_of_mem_filter
  · exact ⟨_, joinsExcerpts_concatenate working guarded (selected_subset _ _ _),
      textOfWorkflow_eq_truncate limited _ _ _⟩

/-- In this tree both fragments are links: the first one leads to a file in the directory of the
index, and the second one to a file beside it. -/
def fragmentTree : FileTree where
  entries :=
    [(["p"], .directory), (["p", "_knowledge"], .directory),
      (["p", "_knowledge", "index.csv"],
        .file ⟨"id,name,description,fragment_file,tags\na,,,a.md,t\nb,,,b.md,t\n".toUTF8.data⟩),
      (["p", "_knowledge", "a.md"], .link ⟨"kept/a.md"⟩),
      (["p", "_knowledge", "b.md"], .link ⟨"../b.md"⟩),
      (["p", "_knowledge", "kept"], .directory),
      (["p", "_knowledge", "kept", "a.md"], .file ⟨"Wait.".toUTF8.data⟩),
      (["p", "b.md"], .file ⟨"Private.".toUTF8.data⟩)]
  workingDirectory := []

/-- The library of this tree has the first fragment, and not the second one. -/
theorem first_fragment_is_taken_inside :
    ∃ library, ofProject fragmentTree ⟨"/p"⟩ {} = .ok (some library) ∧
      (∃ excerpt : Excerpt, excerpt.IsTakenInside fragmentTree library.index ∧
        excerpt.fragment.id = "a" ∧ "<!-- KNOWLEDGE: a -->\nWait." = excerpt.text) ∧
      JoinsExcerpts fragmentTree library.index (library.index.withTags ["t"] [])
        "<!-- KNOWLEDGE: a -->\nWait." := by
  have shown : (ofProject fragmentTree ⟨"/p"⟩ {}).toOption.map (·.map fun library =>
      (library.fragmentText? fragmentTree "a", library.textOfTags fragmentTree ["t"] [])) =
      some (some (some "<!-- KNOWLEDGE: a -->\nWait.", "<!-- KNOWLEDGE: a -->\nWait.")) := by
    decide +kernel
  obtain ⟨found, opened, mapped⟩ := Outcome.exists_of_map_toOption shown
  obtain ⟨library, rfl, texts⟩ := Option.map_eq_some_iff.1 mapped
  obtain ⟨text, joined⟩ := Prod.mk.inj texts
  obtain ⟨single, -, tagged, -⟩ := texts_are_taken_inside .root opened
  exact ⟨library, opened, (single _ _).1 text, joined ▸ tagged ["t"] []⟩

end Library

end Knowledge

end WorkflowBundle
