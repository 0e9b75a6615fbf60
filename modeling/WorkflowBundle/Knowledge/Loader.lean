/-
This file loads fragments of knowledge from their files.
-/

import WorkflowBundle.Bundle.Budget
import WorkflowBundle.Configuration.Basic
import WorkflowBundle.Knowledge.Index
import WorkflowBundle.Knowledge.Selection
import WorkflowBundle.Project.KnowledgeIndex

namespace WorkflowBundle.Knowledge

/-- A library is an index with configured selectors and perhaps a budget of tokens. -/
structure Library where
  index : KnowledgeIndex
  selectors : Dictionary (List String) := ∅
  budget : Option Nat := none

namespace Library

/-- The library of a project is that of its index, if it has one. -/
def ofProject (tree : FileTree) (root : Path) (settings : KnowledgeSettings) :
    Except InputFault (Option Library) :=
  match Project.indexPath? tree root settings.indexPath with
  | none => .ok none
  | some path =>
    (KnowledgeIndex.load tree path).map fun index =>
      some ⟨index, settings.selectors, some settings.maxTokens⟩

/-- The file of a fragment stays in the directory of the index when its links are followed. -/
def filePath? (tree : FileTree) (library : Library) (fragment : Fragment) : Option Path :=
  let directory := library.index.directory
  (tree.canonical (directory.join fragment.file)).toOption.filter fun path =>
    path.startsWith (tree.canonicalOrSelf directory)

/-- The text of a fragment comes behind a comment with its name, and a file that cannot be read has
none. -/
def text? (tree : FileTree) (library : Library) (fragment : Fragment) : Option String := do
  let path ← library.filePath? tree fragment
  let content ← (tree.read path).toOption
  some (s!"<!-- KNOWLEDGE: {fragment.displayName} -->\n" ++ content)

/-- Fragments without a text are left out, and the others have an empty line between them. -/
def concatenate (tree : FileTree) (library : Library) (fragments : List Fragment) : String :=
  Text.join "\n\n" (fragments.filterMap (library.text? tree))

def fragmentText? (tree : FileTree) (library : Library) (id : String) : Option String :=
  (library.index.find? id).bind (library.text? tree)

/-- The text of the fragments with some identifiers, less those with excluded tags. -/
def textOfIds (tree : FileTree) (library : Library) (ids excluded : List String) : String :=
  library.concatenate tree <|
    (library.index.withIds ids).filter fun fragment => !fragment.hasAnyTag excluded

/-- The text of the fragments with some tags, less those with excluded tags. -/
def textOfTags (tree : FileTree) (library : Library) (tags excluded : List String) : String :=
  library.concatenate tree (library.index.withTags tags excluded)

/-- The fragments that selectors name come first, then those that have a selector as a tag. None of
them comes twice or has an excluded tag. -/
def selected (library : Library) (selectors excluded : List String) : List Fragment :=
  KnowledgeIndex.keepFirst <|
    (library.index.withIds selectors ++ library.index.withTags selectors []).filter
      fun fragment => !fragment.hasAnyTag excluded

/-- The text that a workflow selects is cut to the budget. -/
def textOfWorkflow (tree : FileTree) (library : Library) (workflow : String) (flags : Flags) :
    String :=
  match selectorsFor library.selectors workflow with
  | [] => ""
  | selectors =>
    let text := library.concatenate tree (library.selected selectors flags.excludedTags)
    match library.budget with
    | some budget => Bundle.truncate text budget
    | none => text

end Library

end WorkflowBundle.Knowledge
