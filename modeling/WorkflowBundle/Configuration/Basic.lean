/-
This file holds the configuration of a project.
-/

import WorkflowBundle.Dictionary
import WorkflowBundle.Yaml.Basic

namespace WorkflowBundle

/-- The knowledge settings say where the index is, which groups of fragments are used, which
fragments a workflow selects, and how many tokens they may have. -/
structure KnowledgeSettings where
  indexPath : Option String := none
  playwrightUtils : Bool := true
  mcpEnhancements : Bool := true
  selectors : Dictionary (List String) := ∅
  maxTokens : Nat := 12000

/-- The test settings say where the tests are, and may have knowledge settings. -/
structure TestSettings where
  testDirectory : String := "tests/"
  knowledge : Option KnowledgeSettings := none

/-- The path settings are four optional texts. -/
structure PathSettings where
  outputFolder : Option String := none
  projectKnowledge : Option String := none
  communicationLanguage : Option String := none
  userName : Option String := none
deriving DecidableEq

/-- A configuration has test settings, path settings, variables for all workflows, and variables for
single workflows. -/
structure Configuration where
  tests : Option TestSettings := none
  paths : PathSettings := {}
  sharedDefaults : Yaml.Mapping := []
  overrides : Dictionary Yaml.Mapping := ∅

namespace Configuration

/-- The configuration of a project is read from this file in its root. -/
def fileName : String := "bundleforge.yaml"

/-- Knowledge settings that are absent have their default values. -/
def knowledge (configuration : Configuration) : KnowledgeSettings :=
  (configuration.tests.bind TestSettings.knowledge).getD {}

def testDirectory (configuration : Configuration) : String :=
  (configuration.tests.getD {}).testDirectory

end Configuration

end WorkflowBundle
