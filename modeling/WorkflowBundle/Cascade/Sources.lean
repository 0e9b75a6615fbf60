/-
This file lists the sources of variables in a compilation.
-/

import WorkflowBundle.Context
import WorkflowBundle.Knowledge.Selection
import WorkflowBundle.Project.CiPlatform
import WorkflowBundle.Project.KnowledgeIndex
import WorkflowBundle.Project.ReviewScope
import WorkflowBundle.Variable.FromYaml

namespace WorkflowBundle.Cascade

open Variable (Table Value)

/-- A source lists named values, and a later value of a name takes the place of an earlier one. -/
abbrev Source := List (String × Value)

/-- A text is a value under a name. -/
def textEntry (name text : String) : String × Value := (name, .ofText text)

/-- An optional text is a value when it is present. -/
def optionalEntry (name : String) (text : Option String) : Source :=
  text.toList.map (textEntry name)

/-- The flags of knowledge settings are truth values. -/
def flagEntries (settings : KnowledgeSettings) : Source :=
  [("use_playwright_utils", .boolean settings.playwrightUtils),
    ("use_mcp_enhancements", .boolean settings.mcpEnhancements)]

/-- The path settings are variables. -/
def pathSource (paths : PathSettings) : Source :=
  optionalEntry "output_folder" paths.outputFolder ++
    optionalEntry "project_knowledge" paths.projectKnowledge ++
    optionalEntry "communication_language" paths.communicationLanguage ++
    optionalEntry "user_name" paths.userName

/-- The test settings that are present are variables. -/
def testSource (tests : TestSettings) : Source :=
  textEntry "test_dir" tests.testDirectory :: (tests.knowledge.map flagEntries).getD []

/-- Every workflow of a project knows the root, written as given here, the name of the configuration
file, the test settings, and the index of the knowledge base if there is one. -/
def projectSource (tree : FileTree) (context : Context) (root : Path) : Source :=
  let knowledge := context.configuration.knowledge
  let index := Project.indexPath? tree context.root knowledge.indexPath
  [textEntry "project-root" root.text, textEntry "project_root" root.text,
    textEntry "config_source" Configuration.fileName,
    textEntry "test_dir" context.configuration.testDirectory] ++
    flagEntries knowledge ++ optionalEntry "knowledgeIndex" (index.map Path.text)

/-- The workflows that set up continuous integration know its platform. -/
def platformSource (tree : FileTree) (context : Context) (workflow : String) : Source :=
  if Knowledge.kindOf workflow == "ci" then
    [textEntry "ci_platform" (CiPlatform.detect tree context.root).name]
  else []

def mappingSource (mapping : Yaml.Mapping) : Source :=
  mapping.filterMap Variable.entry?

def overrideSource (configuration : Configuration) (workflow : String) : Source :=
  ((configuration.overrides.find? workflow).map mappingSource).getD []

def defaultLanguage : String := "English"

/-- The language of a run is that of its variables, or else that of the configuration. -/
def language (context : Context) : String :=
  ((context.bindings.text? "communication_language").or
    context.configuration.paths.communicationLanguage).getD defaultLanguage

/-- A run knows its folders, its language and its date. -/
def runSource (context : Context) : Source :=
  [textEntry "implementation_artifacts" context.outputFolder.text] ++
    optionalEntry "project_knowledge" (context.projectKnowledge.map Path.text) ++
    [textEntry "communication_language" (language context), textEntry "date" context.date]

/-- The workflows that review tests know what the review is about. -/
def reviewSource (context : Context) (workflow : String) : Source :=
  if Knowledge.kindOf workflow == "test-review" then
    let scope := ReviewScope.ofVariables context.bindings context.configuration.testDirectory
    [textEntry "review_scope" scope.name]
  else []

/-- The variables that a workflow declares are in this setting. -/
def declarationSetting : String := "variables"

/-- These settings of a workflow are no variables. -/
def reservedSettings : List String := [declarationSetting, "config_source", "standalone"]

/-- A setting is a variable when it is a string that does not start with a reference to the
configuration, a truth value or a number. -/
def isVariableSetting : Yaml → Bool
  | .string text => !Variable.isConfigurationReference text
  | .boolean _ | .integer _ | .binary _ => true
  | _ => false

/-- A setting that is not reserved may be a variable. -/
def settingEntry? (setting : Yaml × Yaml) : Option (String × Value) := do
  let name ← setting.1.text?
  if reservedSettings.contains name || !isVariableSetting setting.2 then none
  else (Value.ofYaml? setting.2).map fun value => (name, value)

def declaredSource (settings : Yaml.Mapping) : Source :=
  (((settings.find? declarationSetting).bind Yaml.entries?).map mappingSource).getD []

def directoryVariable : String := "installed_path"

/-- A workflow declares variables, sets others, and knows its directory. -/
def workflowSource (workflow : Workflow) : Source :=
  declaredSource workflow.settings ++ workflow.settings.filterMap settingEntry? ++
    [textEntry directoryVariable workflow.directory.text]

end WorkflowBundle.Cascade
