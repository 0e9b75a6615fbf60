/-
This file writes a configuration as a YAML document and takes its fingerprint.
-/

import WorkflowBundle.Configuration.Basic
import WorkflowBundle.Digest.Sha256
import WorkflowBundle.Yaml.Writer

namespace WorkflowBundle

def yamlField (name : String) (value : Yaml) : Yaml × Yaml := (.string name, value)

/-- An optional text is a field when it is present. -/
def yamlTextField (name : String) (value : Option String) : Yaml.Mapping :=
  value.toList.map fun text => yamlField name (.string text)

def selectorsToYaml (selectors : Dictionary (List String)) : Yaml :=
  .mapping (selectors.entries.map fun (name, values) =>
    yamlField name (.sequence (values.map .string)))

/-- Knowledge settings leave out an absent index and empty selectors. -/
def KnowledgeSettings.toYaml (settings : KnowledgeSettings) : Yaml :=
  .mapping <|
    yamlTextField "index_path" settings.indexPath ++
      [yamlField "playwright_utils" (.boolean settings.playwrightUtils),
        yamlField "mcp_enhancements" (.boolean settings.mcpEnhancements)] ++
      (if settings.selectors.isEmpty then []
        else [yamlField "default_tags" (selectorsToYaml settings.selectors)]) ++
      [yamlField "max_tokens" (.integer settings.maxTokens)]

/-- Test settings leave out absent knowledge settings. -/
def TestSettings.toYaml (settings : TestSettings) : Yaml :=
  .mapping <|
    yamlField "test_dir" (.string settings.testDirectory) ::
      settings.knowledge.toList.map fun knowledge => yamlField "knowledge" knowledge.toYaml

/-- Path settings leave out absent texts. -/
def PathSettings.toYaml (settings : PathSettings) : Yaml :=
  .mapping <|
    yamlTextField "output_folder" settings.outputFolder ++
      yamlTextField "project_knowledge" settings.projectKnowledge ++
      yamlTextField "communication_language" settings.communicationLanguage ++
      yamlTextField "user_name" settings.userName

namespace Configuration

/-- A configuration has all of its sections, and absent test settings are null. -/
def toYaml (configuration : Configuration) : Yaml :=
  .mapping
    [yamlField "testarch" ((configuration.tests.map TestSettings.toYaml).getD .null),
      yamlField "paths" configuration.paths.toYaml,
      yamlField "shared_defaults" (.mapping configuration.sharedDefaults),
      yamlField "workflow_overrides"
        (.mapping (configuration.overrides.entries.map fun (name, mapping) =>
          yamlField name (.mapping mapping)))]

def fingerprintLength : Nat := 16

/-- The fingerprint is the start of the digest of the written configuration. -/
def fingerprint (configuration : Configuration) : String :=
  String.ofList ((Sha256.ofText configuration.toYaml.write).toList.take fingerprintLength)

end Configuration

end WorkflowBundle
