/-
This file checks a parsed workflow against itself and against the file tree.
-/

import WorkflowBundle.Error.Violation
import WorkflowBundle.Path.Escape
import WorkflowBundle.Text.Blank
import WorkflowBundle.Workflow.Basic

namespace WorkflowBundle.Workflow

def nameProblems (workflow : Workflow) : List Inconsistency :=
  if Text.isBlankText workflow.name then [.emptyName] else []

/-- The kind, the flag and the layout must agree. -/
def kindProblems (workflow : Workflow) : List Inconsistency :=
  if workflow.modal == (workflow.kind == .triModal) && workflow.layout.kind == workflow.kind then []
  else [.kindMismatch workflow.kind workflow.modal]

def instructionsProblems (tree : FileTree) (workflow : Workflow) : List Inconsistency :=
  if tree.exists? workflow.instructionsPath then []
  else [.missingInstructions workflow.instructionsPath]

/-- The first step of each mode must exist. -/
def stepProblems (tree : FileTree) (workflow : Workflow) : List Inconsistency :=
  workflow.layout.modes.filterMap fun mode =>
    match workflow.firstStep? mode with
    | some step => if tree.exists? step then none else some (.missingFirstStep mode step)
    | none => none

/-- The problems of a workflow are found in this order. -/
def problems (tree : FileTree) (workflow : Workflow) : List Inconsistency :=
  workflow.nameProblems ++ workflow.kindProblems ++ workflow.instructionsProblems tree ++
    workflow.stepProblems tree

/-- A workflow is valid when it has no problems, and otherwise the first of them counts. -/
def validate (tree : FileTree) (workflow : Workflow) : Except Violation Unit :=
  match workflow.problems tree with
  | [] => .ok ()
  | problem :: _ => .error (.inconsistent problem)

/-- A file setting without braces should not leave its directory. -/
def referenceNotes (name : String) (setting : Option String) : List String :=
  match setting with
  | some text =>
    if text.toList.contains '\x7b' then []
    else
      (Escape.ofReference? text).toList.map fun escape => s!"note: {name} {escape.message}"
  | none => []

/-- Instructions may be missing beside steps, and should not be blank without them. -/
def instructionsNotes (workflow : Workflow) : List String :=
  if workflow.modal && workflow.instructions.isEmpty then
    ["note: no instructions file, step chains are the instructions"]
  else if !workflow.modal && Text.isBlankText workflow.instructions then
    ["note: instructions document is empty"]
  else []

/-- A review lists all problems of a workflow and then the notes on it. -/
def review (tree : FileTree) (workflow : Workflow) : List String :=
  (workflow.problems tree).map (fun problem => s!"error: {problem.message}") ++
    referenceNotes "template" workflow.template ++
    referenceNotes "validation" workflow.validation ++ workflow.instructionsNotes

end WorkflowBundle.Workflow
