/-
This file says which fragments of knowledge a workflow selects, and in which order.
-/

import WorkflowBundle.Knowledge.Loader
import WorkflowBundle.Proofs.Knowledge.Index
import WorkflowBundle.Proofs.Outcome

namespace WorkflowBundle

namespace Fragment

/-- A fragment has some of the given tags when one of its own is among them. -/
theorem hasAnyTag_iff {fragment : Fragment} {tags : List String} :
    fragment.hasAnyTag tags = true ↔ ∃ tag ∈ fragment.tags, tag ∈ tags := by
  simp only [hasAnyTag, List.any_eq_true, List.contains_iff_mem]
  exact ⟨fun ⟨tag, given, own⟩ => ⟨tag, own, given⟩, fun ⟨tag, own, given⟩ => ⟨tag, given, own⟩⟩

/-- A fragment is allowed when it has none of the excluded tags. -/
def isAllowed (excluded : List String) (fragment : Fragment) : Bool :=
  !fragment.hasAnyTag excluded

theorem isAllowed_iff {fragment : Fragment} {excluded : List String} :
    fragment.isAllowed excluded = true ↔ ∀ tag ∈ fragment.tags, tag ∉ excluded := by
  rw [isAllowed, Bool.not_eq_true', Bool.eq_false_iff, ne_eq, hasAnyTag_iff]
  push Not
  rfl

end Fragment

namespace Knowledge

/-- A selection lists fragments that selectors name, in the order in which these come first, and then
others that have a selector as a tag, in the order of the index. It has each fragment with a selector
as identifier or tag once, unless the fragment has an excluded tag. -/
structure IsSelection (fragments : List Fragment) (selectors excluded : List String)
    (named tagged : List Fragment) : Prop where
  present : ∀ fragment, fragment ∈ named ++ tagged ↔
    fragment ∈ fragments ∧ (fragment.id ∈ selectors ∨ ∃ tag ∈ fragment.tags, tag ∈ selectors) ∧
      ∀ tag ∈ fragment.tags, tag ∉ excluded
  distinct : ((named ++ tagged).map Fragment.id).Nodup
  namedFirst : ∀ fragment ∈ named, fragment.id ∈ selectors
  taggedBehind : ∀ fragment ∈ tagged, fragment.id ∉ selectors
  namedOrder : named.Pairwise fun earlier later =>
    selectors.idxOf earlier.id < selectors.idxOf later.id
  taggedOrder : tagged.Sublist fragments

namespace Library

def allowed? (library : Library) (excluded : List String) (id : String) : Option Fragment :=
  (library.index.find? id).filter (Fragment.isAllowed excluded)

/-- The allowed fragments that selectors name are kept once. -/
def named (library : Library) (selectors excluded : List String) : List Fragment :=
  KnowledgeIndex.keepFirst (selectors.filterMap (library.allowed? excluded))

/-- The allowed fragments that have a selector as a tag, and that no selector names. -/
def tagged (library : Library) (selectors excluded : List String) : List Fragment :=
  library.index.fragments.filter fun fragment =>
    fragment.id ∉ selectors ∧ fragment.hasAnyTag selectors ∧ fragment.isAllowed excluded

section

variable {library : Library} {selectors excluded : List String}

/-- An identifier finds the allowed fragment that carries it. -/
theorem allowed?_eq_some_iff (distinct : (library.index.fragments.map Fragment.id).Nodup)
    {id : String} {fragment : Fragment} :
    library.allowed? excluded id = some fragment ↔
      fragment ∈ library.index.fragments ∧ fragment.id = id ∧
        fragment.isAllowed excluded = true := by
  rw [allowed?, Option.filter_eq_some_iff, KnowledgeIndex.find?_eq_some_iff distinct, and_assoc]

/-- Selectors name an allowed fragment of the index by its identifier. -/
theorem mem_filterMap_allowed?_iff (distinct : (library.index.fragments.map Fragment.id).Nodup)
    {fragment : Fragment} :
    fragment ∈ selectors.filterMap (library.allowed? excluded) ↔
      fragment ∈ library.index.fragments ∧ fragment.id ∈ selectors ∧
        fragment.isAllowed excluded = true := by
  simp only [List.mem_filterMap, allowed?_eq_some_iff distinct]
  constructor
  · rintro ⟨id, listed, member, rfl, allowed⟩
    exact ⟨member, listed, allowed⟩
  · rintro ⟨member, listed, allowed⟩
    exact ⟨fragment.id, listed, member, rfl, allowed⟩

/-- An allowed fragment of the index is named when its identifier is a selector. -/
theorem mem_named_iff (distinct : (library.index.fragments.map Fragment.id).Nodup)
    {fragment : Fragment} :
    fragment ∈ library.named selectors excluded ↔
      fragment ∈ library.index.fragments ∧ fragment.id ∈ selectors ∧
        fragment.isAllowed excluded = true := by
  rw [← mem_filterMap_allowed?_iff distinct, named]
  constructor
  · intro kept
    exact (KnowledgeIndex.keepFirst_sublist _).subset kept
  · intro listed
    -- A fragment with the same identifier is kept, and in an index this is the same fragment.
    obtain ⟨other, kept, same⟩ := List.mem_map.1
      (KnowledgeIndex.mem_map_id_keepFirst.2 (List.mem_map_of_mem listed))
    have otherListed := (KnowledgeIndex.keepFirst_sublist _).subset kept
    rw [mem_filterMap_allowed?_iff distinct] at listed otherListed
    exact List.inj_on_of_nodup_map distinct otherListed.1 listed.1 same ▸ kept

/-- An allowed fragment of the index is tagged when a tag of it, but not its identifier, is a
selector. -/
theorem mem_tagged_iff {fragment : Fragment} :
    fragment ∈ library.tagged selectors excluded ↔
      fragment ∈ library.index.fragments ∧ fragment.id ∉ selectors ∧
        fragment.hasAnyTag selectors = true ∧ fragment.isAllowed excluded = true := by
  rw [tagged, List.mem_filter, decide_eq_true_iff]

/-- Of the allowed fragments of the index, the tagged ones are those that have a selector as a tag and
that the named ones do not hide. -/
theorem tagged_eq (distinct : (library.index.fragments.map Fragment.id).Nodup) :
    ((library.index.withTags selectors []).filter (Fragment.isAllowed excluded)).filter
        (fun fragment =>
          fragment.id ∉ (selectors.filterMap (library.allowed? excluded)).map Fragment.id) =
      library.tagged selectors excluded := by
  rw [tagged, KnowledgeIndex.withTags, List.filter_filter, List.filter_filter]
  refine List.filter_congr fun fragment member => ?_
  have untagged : fragment.hasAnyTag [] = false := rfl
  cases allowed : fragment.isAllowed excluded with
  | false => simp
  | true =>
      have named : fragment.id ∈ (selectors.filterMap (library.allowed? excluded)).map Fragment.id ↔
          fragment.id ∈ selectors := by
        constructor
        · intro carried
          obtain ⟨other, listed, same⟩ := List.mem_map.1 carried
          exact same ▸ ((mem_filterMap_allowed?_iff distinct).1 listed).2.1
        · intro listed
          exact List.mem_map_of_mem
            ((mem_filterMap_allowed?_iff distinct).2 ⟨member, listed, allowed⟩)
      simp only [named, untagged, Bool.not_false, Bool.and_true, Bool.decide_and,
        Bool.decide_eq_true, and_true]

theorem selected_eq (distinct : (library.index.fragments.map Fragment.id).Nodup) :
    library.selected selectors excluded =
      library.named selectors excluded ++ library.tagged selectors excluded := by
  have opened : library.selected selectors excluded = KnowledgeIndex.keepFirst
      ((library.index.withIds selectors ++ library.index.withTags selectors []).filter
        (Fragment.isAllowed excluded)) := rfl
  have byId : (library.index.withIds selectors).filter (Fragment.isAllowed excluded) =
      selectors.filterMap (library.allowed? excluded) :=
    List.filter_filterMap
  have byTag : ((library.index.withTags selectors []).filter (Fragment.isAllowed excluded)).Sublist
      library.index.fragments :=
    List.filter_sublist.trans List.filter_sublist
  rw [opened, List.filter_append, byId,
    KnowledgeIndex.keepFirst_append _ ((byTag.map Fragment.id).nodup distinct), tagged_eq distinct,
    named]

/-- What a library selects from an index is a selection. -/
theorem isSelection_selected (distinct : (library.index.fragments.map Fragment.id).Nodup)
    (selectors excluded : List String) :
    IsSelection library.index.fragments selectors excluded (library.named selectors excluded)
      (library.tagged selectors excluded) where
  present fragment := by
    rw [List.mem_append, mem_named_iff distinct, mem_tagged_iff, Fragment.isAllowed_iff,
      Fragment.hasAnyTag_iff]
    tauto
  distinct := by
    rw [← selected_eq distinct]
    exact KnowledgeIndex.nodup_keepFirst _
  namedFirst fragment member := ((mem_named_iff distinct).1 member).2.1
  taggedBehind fragment member := (mem_tagged_iff.1 member).2.1
  namedOrder := KnowledgeIndex.pairwise_keepFirst_filterMap
    (fun _ _ found => ((allowed?_eq_some_iff distinct).1 found).2.1) selectors
  taggedOrder := List.filter_sublist

theorem selected_nil : library.selected [] excluded = [] := by
  have untagged : library.index.withTags [] [] = [] :=
    List.filter_eq_nil_iff.2 fun _ _ => Bool.false_ne_true
  rw [selected, untagged]
  rfl

/-- Without a budget the text of a workflow is that of the selected fragments. -/
theorem textOfWorkflow_eq (unlimited : library.budget = none) (tree : FileTree) (workflow : String)
    (flags : Flags) :
    library.textOfWorkflow tree workflow flags = library.concatenate tree
      (library.selected (selectorsFor library.selectors workflow) flags.excludedTags) := by
  rw [textOfWorkflow]
  split
  · rename_i none
    rw [none, selected_nil]
    rfl
  · rw [unlimited]

end

/-- A file is the one of a fragment when the reference of the fragment leads to it and it lies in the
canonical directory. -/
theorem filePath?_eq_some_iff {tree : FileTree} {library : Library} {fragment : Fragment}
    {path : Path} :
    library.filePath? tree fragment = some path ↔
      tree.canonical (library.index.directory.join fragment.file) = .ok path ∧
        path.startsWith (tree.canonicalOrSelf library.index.directory) = true := by
  rw [filePath?, Option.filter_eq_some_iff, Outcome.toOption_eq_some_iff]

/-- The text of a fragment is the content of its file behind a comment with its name. -/
theorem text?_eq_some_iff {tree : FileTree} {library : Library} {fragment : Fragment}
    {text : String} :
    library.text? tree fragment = some text ↔
      ∃ file content,
        tree.canonical (library.index.directory.join fragment.file) = .ok file ∧
        file.startsWith (tree.canonicalOrSelf library.index.directory) = true ∧
        tree.read file = .ok content ∧
        text = s!"<!-- KNOWLEDGE: {fragment.displayName} -->\n" ++ content := by
  rw [text?, Option.bind_eq_bind, Option.bind_eq_some_iff]
  simp only [filePath?_eq_some_iff, Option.bind_eq_bind, Option.bind_eq_some_iff,
    Outcome.toOption_eq_some_iff, Option.some_inj]
  constructor
  · rintro ⟨file, ⟨led, inside⟩, content, read, rfl⟩
    exact ⟨file, content, led, inside, read, rfl⟩
  · rintro ⟨file, content, led, inside, read, rfl⟩
    exact ⟨file, ⟨led, inside⟩, content, read, rfl⟩

/-- A library of some fragments has no budget. -/
def ofFragments (path : Path) (fragments : List Fragment) (selectors : Dictionary (List String)) :
    Library where
  index := .ofFragments path fragments
  selectors

/-- The text of a workflow joins the texts of a selection from the index: of the fragments that the
selectors of the workflow name, and then of those that have one of them as a tag. No fragment comes
twice, none has a tag that the flags switch off, and every other one that a selector matches is
there, so that its text is if the fragment can be read. This text is the content of the file that the
fragment refers to, behind a comment with its name, if links do not lead the file out of the
directory of the index. -/
theorem knowledge_is_join_of_selection (tree : FileTree) (path : Path) (fragments : List Fragment)
    (selectors : Dictionary (List String)) (workflow : String) (flags : Flags) :
    ∃ named tagged,
      IsSelection (ofFragments path fragments selectors).index.fragments
        (selectorsFor selectors workflow) flags.excludedTags named tagged ∧
      (ofFragments path fragments selectors).textOfWorkflow tree workflow flags =
        Text.join "\n\n"
          ((named ++ tagged).filterMap ((ofFragments path fragments selectors).text? tree)) ∧
      ∀ fragment text, (ofFragments path fragments selectors).text? tree fragment = some text ↔
        ∃ file content,
          tree.canonical
            ((ofFragments path fragments selectors).index.directory.join fragment.file) = .ok file ∧
          file.startsWith (tree.canonicalOrSelf
            (ofFragments path fragments selectors).index.directory) = true ∧
          tree.read file = .ok content ∧
          text = s!"<!-- KNOWLEDGE: {fragment.displayName} -->\n" ++ content := by
  have distinct : ((ofFragments path fragments selectors).index.fragments.map Fragment.id).Nodup :=
    KnowledgeIndex.nodup_keepFirst fragments
  refine ⟨_, _, isSelection_selected distinct (selectorsFor selectors workflow) flags.excludedTags,
    ?_, fun _ _ => text?_eq_some_iff⟩
  rw [← selected_eq distinct]
  exact textOfWorkflow_eq rfl tree workflow flags

example :
    ((ofFragments ⟨"index.csv"⟩
        [⟨"a", "", "", ["b"], "a.md"⟩, ⟨"b", "", "", [], "b.md"⟩, ⟨"c", "", "", ["b", "mcp"], "c.md"⟩,
          ⟨"d", "", "", ["b"], "d.md"⟩, ⟨"e", "", "", [], "e.md"⟩]
        ∅).selected ["b", "a", "b"] ["mcp"]).map Fragment.id = ["b", "a", "d"] := by
  decide

end Library

end Knowledge

end WorkflowBundle
