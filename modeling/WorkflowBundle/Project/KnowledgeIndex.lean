/-
This file locates the index of the knowledge base inside a project.
-/

import WorkflowBundle.FileTree.Resolve
import WorkflowBundle.Text.Blank

namespace WorkflowBundle.Project

/-- The index is looked for at these places below the project root, in this order. -/
def indexPlaces : List String := ["_knowledge/index.csv", "docs/knowledge/index.csv"]

/-- An explicit index is relative, has no double dot, exists, and stays inside the project when its
links are followed. -/
def explicitIndex? (tree : FileTree) (root : Path) (reference : String) : Option Path :=
  let candidate := root.join reference
  let resolved := tree.canonicalOrSelf candidate
  if !(Path.mk reference).isAbsolute && !Text.contains ".." reference &&
      tree.exists? candidate && resolved.startsWith (tree.canonicalOrSelf root) then
    some resolved
  else none

/-- An explicit index that is not blank is the only candidate, and otherwise the first file at one
of the places is the index. -/
def indexPath? (tree : FileTree) (root : Path) (explicit : Option String) : Option Path :=
  match explicit.filter fun reference => !Text.isBlankText reference with
  | some reference => explicitIndex? tree root reference
  | none => (indexPlaces.map root.join).find? tree.isFile

end WorkflowBundle.Project
