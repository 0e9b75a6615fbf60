/-
This file splits the block of settings off the top of a Markdown document.
-/

import WorkflowBundle.FileTree.Resolve
import WorkflowBundle.Text.Blank
import WorkflowBundle.Yaml.Reader

namespace WorkflowBundle.FrontMatter

/-- Front matter stands between two of these marks. -/
def mark : List Char := ['-', '-', '-']

/-- A document starts with a mark, its front matter lasts until the next mark, and line ends behind
that mark do not belong to the body. -/
def split? (text : String) : Option (String × String) :=
  if mark.isPrefixOf text.toList then
    (Text.cut? mark (text.toList.drop mark.length)).map fun (block, rest) =>
      (String.ofList block,
        String.ofList (rest.dropWhile fun character => character == '\r' || character == '\n'))
  else none

/-- The body of a document is what comes behind its front matter, if it has any. -/
def body (text : String) : String :=
  match split? text with
  | some (_, rest) => rest
  | none => text

/-- Front matter that is missing, malformed or no mapping has no settings. -/
def settings (text : String) : Yaml.Mapping :=
  match split? text with
  | none => []
  | some (block, _) =>
    if Text.isBlankText block then []
    else
      match Yaml.parse block with
      | .ok (.mapping entries) => entries
      | _ => []

/-- A file that cannot be read has no settings. -/
def load (tree : FileTree) (path : Path) : Yaml.Mapping :=
  match tree.read path with
  | .ok text => settings text
  | .error _ => []

end WorkflowBundle.FrontMatter
