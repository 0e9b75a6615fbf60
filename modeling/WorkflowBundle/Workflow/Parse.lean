/-
This file parses a workflow directory.
-/

import WorkflowBundle.Workflow.Basic
import WorkflowBundle.Workflow.FrontMatter
import WorkflowBundle.Workflow.Instructions

namespace WorkflowBundle.Workflow

/-- The settings of a workflow are in this file. -/
def definitionFile : String := "workflow.yaml"

/-- The front matter of this file has settings as well. -/
def frontMatterFile : String := "workflow.md"

/-- Instructions are looked for in these files, in this order. -/
def instructionFiles : List String := ["instructions.xml", "instructions.md"]

/-- Settings are a mapping, and a text without a value has none. -/
def parseSettings (text : String) (source : Path) : Except InputFault Yaml.Mapping :=
  if Text.isBlankText text then .ok []
  else
    match Yaml.parse text with
    | .ok .null => .ok []
    | .ok (.mapping entries) => .ok entries
    | .ok other => .error (.unstructuredDefinition source other.kindName)
    | .error fault => .error (.malformedDefinition source fault)

/-- A file of settings must exist and be readable. -/
def loadSettings (tree : FileTree) (path : Path) : Except InputFault Yaml.Mapping :=
  if tree.exists? path then do
    let text ← (tree.read path).mapError (.unreadableDefinition path)
    parseSettings text path
  else .error (.missingDefinitionFile path)

/-- Without any instructions file the first one is the one that is missing. -/
def conventionalInstructions (tree : FileTree) (directory : Path) : Path :=
  ((instructionFiles.map directory.join).find? tree.exists?).getD
    (directory.join (instructionFiles.headD ""))

/-- Instructions that the settings name stay inside the directory. Where no file is named, or the
name has a brace, the conventional files are looked for. -/
def instructionsFor (tree : FileTree) (settings : Yaml.Mapping) (directory configPath : Path) :
    Except InputFault Path :=
  match settings.text? "instructions" with
  | some name =>
    if name.isEmpty || name.toList.contains '\x7b' then
      .ok (conventionalInstructions tree directory)
    else
      match Escape.ofReference? name with
      | some escape => .error (.escapingInstructions configPath escape)
      | none => .ok (directory.join name)
  | none => .ok (conventionalInstructions tree directory)

/-- A setting that names a file is a string without a tag. -/
def fileSetting? (settings : Yaml.Mapping) (name : String) : Option String :=
  match settings.find? name with
  | some (.string text) => some text
  | _ => none

/-- The settings of the definition file are set over those of the front matter, and the file that
counts as the configuration is the definition file if it is there. -/
def mergedSettings (tree : FileTree) (directory : Path) :
    Except InputFault (Yaml.Mapping × Path) := do
  let definition := directory.join definitionFile
  let document := directory.join frontMatterFile
  let lower := if tree.isFile document then FrontMatter.load tree document else []
  if tree.isFile definition then
    let upper ← loadSettings tree definition
    return (Yaml.Mapping.overlay lower upper, definition)
  else if tree.isFile document then return (lower, document)
  else throw (.missingDefinition directory)

/-- Instructions that do not exist are replaced by the first step, and are then empty. -/
def loadInstructions (tree : FileTree) (layout : Layout) (path : Path) :
    Except InputFault (Path × String) :=
  if tree.exists? path then (Instructions.load tree path).map fun text => (path, text)
  else
    match layout.preferredStep? with
    | some step => .ok (step, "")
    | none => .error (.missingInstructions path)

/-- A workflow is named by its settings, or else by its directory. -/
def nameOf (settings : Yaml.Mapping) (directory : Path) : String :=
  match (settings.text? "name").filter fun name => !name.isEmpty with
  | some name => name
  | none => directory.fileName?.getD ""

/-- This function parses the workflow in a directory. -/
def parse (tree : FileTree) (path : Path) : Except InputFault Workflow := do
  let directory ← (tree.canonical path).mapError (.missingDirectory path)
  let (settings, configPath) ← mergedSettings tree directory
  let layout := Layout.detect tree directory
  let named ← instructionsFor tree settings directory configPath
  let (instructionsPath, instructions) ← loadInstructions tree layout named
  return {
    name := nameOf settings directory
    configPath := tree.canonicalOrSelf configPath
    instructionsPath := tree.canonicalOrSelf instructionsPath
    template := fileSetting? settings "template"
    validation := fileSetting? settings "validation"
    settings
    instructions
    kind := layout.kind
    modal := !layout.isEmpty
    layout }

end WorkflowBundle.Workflow
