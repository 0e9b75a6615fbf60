/-
This file writes steps as JSON records and reads them.
-/

import WorkflowBundle.Json.Record
import WorkflowBundle.Step.Basic

namespace WorkflowBundle.Step

def fieldNames : List String :=
  ["path", "name", "description", "next_step_file", "knowledge_index", "raw_content"]

/-- A setting that is absent is not written. -/
def toJson (step : Step) : Json :=
  .object <|
    ("path", .string step.path.text) ::
      Json.optionalField "name" (step.name.map .string) ++
      Json.optionalField "description" (step.description.map .string) ++
      Json.optionalField "next_step_file" (step.nextStep.map .string) ++
      Json.optionalField "knowledge_index" (step.knowledgeIndex.map .string) ++
      [("raw_content", .string step.body)]

/-- A step needs a path and a body. -/
def ofJson? (json : Json) : Option Step :=
  match Json.record? fieldNames json with
  | some [path, name, description, nextStep, knowledgeIndex, body] => do
    let path ← path.bind Json.text?
    let body ← body.bind Json.text?
    some {
      path := ⟨path⟩
      name := ← Json.optional? Json.text? name
      description := ← Json.optional? Json.text? description
      nextStep := ← Json.optional? Json.text? nextStep
      knowledgeIndex := ← Json.optional? Json.text? knowledgeIndex
      body }
  | _ => none

end WorkflowBundle.Step
