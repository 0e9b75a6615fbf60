/-
This file reads step files: Markdown documents whose front matter may name the next step.
-/

import WorkflowBundle.Error.Violation
import WorkflowBundle.Workflow.FrontMatter

namespace WorkflowBundle

/-- A step has the path it was read from, optional settings, and a body. -/
structure Step where
  path : Path
  name : Option String
  description : Option String
  nextStep : Option String
  knowledgeIndex : Option String
  body : String
deriving DecidableEq

namespace Step

/-- A setting is a string that is not blank, and blanks around it do not count. -/
def setting? (settings : Yaml.Mapping) (name : String) : Option String :=
  ((settings.text? name).map Text.trim).filter fun text => !text.isEmpty

/-- A step is shown by its name, or else by its file. -/
def displayName (step : Step) : String :=
  match step.name.filter fun name => !Text.isBlankText name with
  | some name => name
  | none => step.path.fileStem?.getD "step"

/-- A reference to the next step must stay below the directory of the step. -/
def checkReference (path : Path) (reference : Option String) : Except Violation Unit :=
  match reference.bind Escape.ofReference? with
  | some escape => .error (.escapingStep escape path)
  | none => .ok ()

/-- A step file must be readable. -/
def load (tree : FileTree) (path : Path) : Except Violation Step := do
  let text ← (tree.read path).mapError (.unreadableStep path)
  let settings := FrontMatter.settings text
  let nextStep := setting? settings "nextStepFile"
  checkReference path nextStep
  return {
    path
    name := setting? settings "name"
    description := setting? settings "description"
    nextStep
    knowledgeIndex := setting? settings "knowledgeIndex"
    body := FrontMatter.body text }

/-- The path of the next step is that of an existing file or directory. -/
def nextPath? (tree : FileTree) (step : Step) : Option Path :=
  step.nextStep.bind fun reference =>
    (tree.canonical ((step.path.parent?.getD ⟨"."⟩).join reference)).toOption

end Step

end WorkflowBundle
