/-
This file holds parsed workflows.
-/

import WorkflowBundle.Workflow.Layout
import WorkflowBundle.Yaml.Basic

namespace WorkflowBundle

/-- A workflow has a name, the files it was read from, its settings, its instructions as written,
and its kind with the layout of its steps. -/
structure Workflow where
  name : String
  configPath : Path
  instructionsPath : Path
  template : Option String
  validation : Option String
  settings : Yaml.Mapping
  instructions : String
  kind : WorkflowKind
  modal : Bool
  layout : Layout

namespace Workflow

/-- The directory of a workflow is that of its configuration file. -/
def directory (workflow : Workflow) : Path :=
  workflow.configPath.parent?.getD ⟨"."⟩

def firstStep? (workflow : Workflow) (mode : Mode) : Option Path :=
  workflow.layout.firstStep? mode

end Workflow

end WorkflowBundle
