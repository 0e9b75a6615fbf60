/-
This file writes a compiled workflow as one XML document.
-/

import WorkflowBundle.FileTree.Resolve
import WorkflowBundle.Variable.Value
import WorkflowBundle.Xml.Escape

namespace WorkflowBundle

/-- A bundle has a name, a mission, context files in order, variables, instructions and an output
template. -/
structure Bundle where
  name : String
  mission : String
  contextFiles : List (Path × String)
  bindings : Variable.Table
  instructions : String
  outputTemplate : String
  linksOnly : Bool

namespace Bundle

def hiddenVariables : List String := ["knowledge_base"]

/-- A file is shown relative to the project root or to the root's canonical form, and in full
outside of both. -/
def displayPath (tree : FileTree) (root path : Path) : String :=
  match path.relativeTo? root with
  | some relative => relative.text
  | none =>
    match (tree.canonical root).toOption.bind path.relativeTo? with
    | some relative => relative.text
    | none => path.text

/-- An element has its attributes as written, and its content between its tags. -/
def element (name attributes content : String) : String :=
  "<" ++ name ++ attributes ++ ">" ++ content ++ "</" ++ name ++ ">\n"

/-- An attribute has an escaped value between quotes. -/
def attributeText (name value : String) : String :=
  " " ++ name ++ "=\"" ++ Xml.escape value ++ "\""

/-- A section with a text is left out when the text is empty. -/
def optionalSection (name text : String) : String :=
  if text.isEmpty then "" else element name "" (Xml.sections text)

/-- A list of lines stands between the tags of its section, and an empty list is left out. -/
def listSection (name : String) (lines : List String) : String :=
  if lines.isEmpty then "" else element name "" ("\n" ++ String.join lines)

/-- A context file is written with its content, or as a link. -/
def fileLine (tree : FileTree) (root : Path) (linksOnly : Bool) (file : Path × String) : String :=
  let label := attributeText "path" (displayPath tree root file.1)
  if linksOnly then "<file" ++ label ++ " />\n" else element "file" label (Xml.sections file.2)

/-- A variable is written as its rendered value. -/
def variableLine (entry : String × Variable.Value) : String :=
  element "var" (attributeText "name" entry.1) (Xml.escape entry.2.render)

def listedVariables (table : Variable.Table) : List (String × Variable.Value) :=
  table.entries.filter fun entry => !hiddenVariables.contains entry.1

/-- This function writes a bundle, with its files shown relative to a root. -/
def write (tree : FileTree) (root : Path) (bundle : Bundle) : String :=
  element "compiled-workflow" (attributeText "name" bundle.name) <|
    "\n" ++ optionalSection "mission" bundle.mission ++
      listSection "context" (bundle.contextFiles.map (fileLine tree root bundle.linksOnly)) ++
      listSection "variables" ((listedVariables bundle.bindings).map variableLine) ++
      element "instructions" "" (Xml.sections bundle.instructions) ++
      optionalSection "output-template" bundle.outputTemplate

end Bundle

end WorkflowBundle
