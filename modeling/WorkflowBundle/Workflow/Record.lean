/-
This file writes workflows as JSON records, and reads their modes, kinds and layouts.
-/

import WorkflowBundle.Json.Record
import WorkflowBundle.Workflow.Basic

namespace WorkflowBundle

def Mode.ofJson? (json : Json) : Option Mode :=
  (Json.word? json).bind fun word => Mode.all.find? fun mode => mode.name == word

def WorkflowKind.ofJson? (json : Json) : Option WorkflowKind :=
  (Json.word? json).bind WorkflowKind.ofName?

namespace ModeSteps

/-- The steps of a mode are written as their directory and their first step. -/
def toJson (steps : ModeSteps) : Json :=
  .object [("dir", .string steps.directory.text), ("first_step", .string steps.firstStep.text)]

/-- The steps of a mode need both fields. -/
def ofJson? (json : Json) : Option ModeSteps :=
  match Json.record? ["dir", "first_step"] json with
  | some [directory, firstStep] => do
    let directory ← directory.bind Json.text?
    let firstStep ← firstStep.bind Json.text?
    some ⟨⟨directory⟩, ⟨firstStep⟩⟩
  | _ => none

end ModeSteps

namespace Layout

/-- A mode without steps is not written. -/
def toJson (layout : Layout) : Json :=
  .object (Mode.all.flatMap fun mode =>
    Json.optionalField mode.name ((layout.steps? mode).map ModeSteps.toJson))

/-- A layout may lack the steps of any mode. -/
def ofJson? (json : Json) : Option Layout :=
  match Json.record? (Mode.all.map Mode.name) json with
  | some [create, validate, edit] => do
    some {
      create := ← Json.optional? ModeSteps.ofJson? create
      validate := ← Json.optional? ModeSteps.ofJson? validate
      edit := ← Json.optional? ModeSteps.ofJson? edit }
  | _ => none

end Layout

namespace Workflow

/-- A workflow is written when its settings are JSON. -/
def toJson? (workflow : Workflow) : Option Json :=
  (Yaml.toJson? (.mapping workflow.settings)).map fun settings =>
    .object
      [("name", .string workflow.name), ("config_path", .string workflow.configPath.text),
        ("instructions_path", .string workflow.instructionsPath.text),
        ("template_path", (workflow.template.map Json.string).getD .null),
        ("validation_path", (workflow.validation.map Json.string).getD .null),
        ("raw_config", settings), ("raw_instructions", .string workflow.instructions),
        ("workflow_type", .string workflow.kind.name),
        ("has_tri_modal", .boolean workflow.modal), ("tri_modal", workflow.layout.toJson)]

end Workflow

end WorkflowBundle
