/-
This file writes the mission of a workflow and loads its output template.
-/

import WorkflowBundle.FileTree.Resolve
import WorkflowBundle.Variable.Expand
import WorkflowBundle.Workflow.Basic

namespace WorkflowBundle.Workflow

/-- The purpose of a workflow is its description, if that is not blank. -/
def purpose (workflow : Workflow) (bindings : Variable.Table) : String :=
  match ((workflow.settings.text? "description").map Text.trim).filter (!·.isEmpty) with
  | some description => Variable.substitute bindings description
  | none => s!"Execute {workflow.name} workflow"

/-- A mission may name a mode and the story that the variables set. -/
def missionDetails (mode : Option Mode) (bindings : Variable.Table) : List String :=
  (mode.map fun selected => "Mode: " ++ selected.label).toList ++
    (((bindings.text? "story_id").filter (!·.isEmpty)).map ("Target: Story " ++ ·)).toList

/-- The details of a mission come behind its purpose and an empty line, one to a line. -/
def mission (workflow : Workflow) (mode : Option Mode) (bindings : Variable.Table) : String :=
  match missionDetails mode bindings with
  | [] => workflow.purpose bindings
  | details => workflow.purpose bindings ++ "\n\n" ++ Text.join "\n" details

/-- The template of a workflow is in its directory unless its path is absolute, and a path with
placeholders that are left names no template. -/
def templatePath? (workflow : Workflow) (bindings : Variable.Table) : Option Path :=
  ((workflow.template.map (Variable.substitute bindings)).filter fun text =>
    !Variable.hasPlaceholder text).map workflow.directory.join

/-- A template that is missing or cannot be read is empty. -/
def outputTemplate (tree : FileTree) (workflow : Workflow) (bindings : Variable.Table) : String :=
  match (workflow.templatePath? bindings).bind fun path => (tree.read path).toOption with
  | some content => Variable.substitute bindings content
  | none => ""

end WorkflowBundle.Workflow
