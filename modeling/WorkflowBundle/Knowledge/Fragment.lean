/-
This file holds fragments of knowledge and indexes of them.
-/

import WorkflowBundle.Path
import WorkflowBundle.Text.Blank

namespace WorkflowBundle

/-- A fragment has an identifier, a name, a description, tags in ascending order, and a file. -/
structure Fragment where
  id : String
  name : String
  description : String
  tags : List String
  file : String
deriving DecidableEq

namespace Fragment

/-- A set of texts is listed in ascending order without repetition. -/
def sortedSet (texts : List String) : List String :=
  (texts.mergeSort fun first second => decide (first ≤ second)).eraseDups

/-- Tags are separated by commas or semicolons, blanks around them do not count, and empty ones are
left out. -/
def parseTags (text : String) : List String :=
  let pieces := Text.pieces (fun character => character == ',' || character == ';') text.toList
  sortedSet ((pieces.map fun piece => Text.trim (String.ofList piece)).filter (!·.isEmpty))

def hasAnyTag (fragment : Fragment) (tags : List String) : Bool :=
  tags.any fragment.tags.contains

/-- A fragment is shown by its name, or else by its identifier. -/
def displayName (fragment : Fragment) : String :=
  if fragment.name.isEmpty then fragment.id else fragment.name

end Fragment

/-- An index is read from a path and lists fragments with different identifiers. -/
structure KnowledgeIndex where
  path : Path
  fragments : List Fragment

namespace KnowledgeIndex

/-- Of fragments with the same identifier the first one is kept. -/
def keepFirst (fragments : List Fragment) : List Fragment :=
  fragments.foldl
    (fun kept fragment =>
      if kept.any fun other => other.id == fragment.id then kept else kept ++ [fragment]) []

def ofFragments (path : Path) (fragments : List Fragment) : KnowledgeIndex :=
  ⟨path, keepFirst fragments⟩

/-- The files of fragments are in the directory of the index. -/
def directory (index : KnowledgeIndex) : Path :=
  index.path.parent?.getD ⟨""⟩

def find? (index : KnowledgeIndex) (id : String) : Option Fragment :=
  index.fragments.find? fun fragment => fragment.id == id

/-- The fragments of some identifiers come in the order of these. -/
def withIds (index : KnowledgeIndex) (ids : List String) : List Fragment :=
  ids.filterMap index.find?

/-- The fragments with some of the tags and none of the excluded ones come in the order of the
index. -/
def withTags (index : KnowledgeIndex) (tags excluded : List String) : List Fragment :=
  index.fragments.filter fun fragment =>
    fragment.hasAnyTag tags && !fragment.hasAnyTag excluded

end KnowledgeIndex

end WorkflowBundle
