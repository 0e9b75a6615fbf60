/-
This file reads a configuration from the nodes of a YAML document.
-/

import WorkflowBundle.Configuration.Basic
import WorkflowBundle.Error.InputFault
import WorkflowBundle.FileTree.Resolve
import WorkflowBundle.Text.Blank
import WorkflowBundle.Yaml.Reader

namespace WorkflowBundle

open Yaml (Node Read)

namespace Configuration

/-- A text is the content of any scalar. -/
def readText (document node : Node) : Read String := do
  match ← Read.follow document node with
  | .scalar _ _ _ text => return text
  | _ => Read.fail "invalid type, expected a string"

/-- A scalar may have a kind when it is plain, or literal with the tag of the kind. -/
def mayHaveKind (kind : String) (tag : Option String) (style : Yaml.Style) : Bool :=
  style = .plain || (style = .literal && tag = some (Read.coreTag kind))

/-- A flag is a plain truth value. -/
def readFlag (document node : Node) : Read Bool := do
  match ← Read.follow document node with
  | .scalar _ tag style text =>
    match (Yaml.boolean? text).filter fun _ => mayHaveKind "bool" tag style with
    | some value => return value
    | none => Read.fail "invalid type, expected a boolean"
  | _ => Read.fail "invalid type, expected a boolean"

/-- A size is a plain natural number of 64 bits. -/
def readSize (document node : Node) : Read Nat := do
  match ← Read.follow document node with
  | .scalar _ tag style text =>
    match (Yaml.natural? text.toList).filter fun value =>
        value < Nat.pow 2 64 && mayHaveKind "int" tag style with
    | some value => return value
    | none => Read.fail "invalid type, expected a size"
  | _ => Read.fail "invalid type, expected a size"

/-- An optional value is absent where a plain scalar without a tag is null or empty. -/
def readOptional (document : Node) (read : Node → Read α) (node : Node) : Read (Option α) := do
  match ← Read.follow document node with
  | .scalar _ tag .plain text =>
    if tag = some (Read.coreTag "null") then
      if Yaml.isNull text then return none else Read.fail "invalid value, expected null"
    else if tag.isNone && (text.isEmpty || Yaml.isNull text) then return none
    else return some (← read (.scalar none tag .plain text))
  | target => return some (← read target)

/-- A list is a sequence, or an empty plain scalar. -/
def readList (document : Node) (read : Node → Read α) (node : Node) : Read (List α) := do
  match ← Read.follow document node with
  | .sequence _ _ items => items.mapM read
  | .scalar _ _ .plain "" => return []
  | _ => Read.fail "invalid type, expected a sequence"

/-- The fields of a section are the entries of a mapping with scalar keys, and an empty plain scalar
has none. -/
def readFields (document node : Node) : Read (List (String × Node)) := do
  match ← Read.follow document node with
  | .mapping _ _ entries =>
    entries.mapM fun entry => do return (← readText document entry.1, entry.2)
  | .scalar _ _ .plain "" => return []
  | _ => Read.fail "invalid type, expected a mapping"

/-- A field of a section has its default value when it is missing, and may not be repeated. -/
def readField (fields : List (String × Node)) (name : String) (missing : α)
    (read : Node → Read α) : Read α :=
  match fields.filter fun field => field.1 == name with
  | [] => return missing
  | [field] => read field.2
  | _ => Read.fail s!"duplicate field `{name}`"

/-- A dictionary is read entry by entry, and the last entry of a name counts. -/
def readDictionary (document : Node) (read : Node → Read α) (node : Node) :
    Read (Dictionary α) := do
  let fields ← readFields document node
  let entries ← fields.mapM fun field => do return (field.1, ← read field.2)
  return .ofList entries

/-- Variables are a mapping of any values, at a depth of collections. -/
def readMapping (document : Node) (depth : Nat) (node : Node) : Read Yaml.Mapping := do
  match ← Read.follow document node with
  | .mapping anchor _ entries =>
    match ← Read.value document depth (.mapping anchor none entries) with
    | .mapping mapping => return mapping
    | _ => Read.fail "invalid type, expected a mapping"
  | .scalar _ _ .plain "" => return []
  | _ => Read.fail "invalid type, expected a mapping"

/-- Knowledge settings have their default values where fields are missing. -/
def readKnowledge (document node : Node) : Read KnowledgeSettings := do
  let fields ← readFields document node
  let defaults : KnowledgeSettings := {}
  return {
    indexPath := ← readField fields "index_path" none (readOptional document (readText document))
    playwrightUtils :=
      ← readField fields "playwright_utils" defaults.playwrightUtils (readFlag document)
    mcpEnhancements :=
      ← readField fields "mcp_enhancements" defaults.mcpEnhancements (readFlag document)
    selectors :=
      ← readField fields "default_tags" ∅
        (readDictionary document (readList document (readText document)))
    maxTokens := ← readField fields "max_tokens" defaults.maxTokens (readSize document) }

/-- Test settings have a default directory. -/
def readTests (document node : Node) : Read TestSettings := do
  let fields ← readFields document node
  let defaults : TestSettings := {}
  return {
    testDirectory := ← readField fields "test_dir" defaults.testDirectory (readText document)
    knowledge :=
      ← readField fields "knowledge" none (readOptional document (readKnowledge document)) }

/-- Path settings are four optional texts. -/
def readPaths (document node : Node) : Read PathSettings := do
  let fields ← readFields document node
  let text (name : String) : Read (Option String) :=
    readField fields name none (readOptional document (readText document))
  return {
    outputFolder := ← text "output_folder"
    projectKnowledge := ← text "project_knowledge"
    communicationLanguage := ← text "communication_language"
    userName := ← text "user_name" }

/-- A document is a configuration section by section, and unknown sections are ignored. -/
def ofNode (document : Node) : Read Configuration := do
  let fields ← readFields document document
  return {
    tests := ← readField fields "testarch" none (readOptional document (readTests document))
    paths := ← readField fields "paths" {} (readPaths document)
    sharedDefaults :=
      ← readField fields "shared_defaults" [] (readMapping document (Read.depthLimit - 1))
    overrides :=
      ← readField fields "workflow_overrides" ∅
        (readDictionary document (readMapping document (Read.depthLimit - 2))) }

/-- This function reads the configuration of a text. A blank text, and one without a document, is
the default configuration. -/
def parse (text : String) : Except Yaml.Fault Configuration := do
  if Text.isBlankText text then return {}
  match ← Node.parse text with
  | none => return {}
  | some document => Read.run document (ofNode document)

/-- This function reads a text as a mapping of any values, and a text without a document is
empty. -/
def parseMapping (text : String) : Except Yaml.Fault Yaml.Mapping := do
  match ← Node.parse text with
  | none => return []
  | some document => Read.run document (readMapping document Read.depthLimit document)

/-- The source of a text is named when the text is at fault. -/
def parseNamed (text : String) (source : Path) : Except InputFault Configuration :=
  (parse text).mapError (.malformedConfiguration source)

/-- A path without a file has the default configuration. -/
def load (tree : FileTree) (path : Path) : Except InputFault Configuration :=
  if tree.exists? path then
    match tree.read path with
    | .ok text => parseNamed text path
    | .error fault => .error (.unreadableConfiguration path fault)
  else .ok {}

def discover (tree : FileTree) (root : Path) : Except InputFault Configuration :=
  load tree (root.join fileName)

end Configuration

end WorkflowBundle
