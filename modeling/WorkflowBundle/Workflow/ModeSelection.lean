/-
This file selects the mode in which a workflow is compiled.
-/

import WorkflowBundle.Error.Violation
import WorkflowBundle.Text.Blank
import WorkflowBundle.Variable.Value
import WorkflowBundle.Workflow.Basic

namespace WorkflowBundle

def Mode.parse (text : String) : Except Violation Mode :=
  match Mode.ofText? text with
  | some mode => .ok mode
  | none => .error (.unknownMode text)

namespace Workflow

def modeVariable : String := "workflow_mode"

/-- A mode that is asked for must have steps. -/
def checkMode (workflow : Workflow) (text : String) : Except Violation Mode := do
  let mode ← Mode.parse text
  if !workflow.modal then throw (.modeWithoutSteps text workflow.name)
  let available := workflow.layout.modes
  if !available.contains mode then throw (.unavailableMode text workflow.name available)
  return mode

/-- A single document has no mode. A workflow with steps has the mode that the variable names, and
creates when the variable is absent or blank. -/
def selectMode (workflow : Workflow) (bindings : Variable.Table) :
    Except Violation (Option Mode) :=
  if !workflow.modal then .ok none
  else
    match (bindings.text? modeVariable).filter fun text => !Text.isBlankText text with
    | some text => (Mode.parse text).map some
    | none => .ok (some .create)

/-- A mode is asked for when the variable is a text that is not blank. -/
def asksForMode (bindings : Variable.Table) : Bool :=
  ((bindings.find? modeVariable).bind Variable.Value.text?).any fun text =>
    !Text.isBlankText text

/-- A mode that is asked for must be available, and where the selected mode has no steps the first
available one is taken. -/
def resolveMode (workflow : Workflow) (bindings : Variable.Table) :
    Except Violation (Option Mode) := do
  match ← workflow.selectMode bindings with
  | none => return none
  | some mode =>
    if asksForMode bindings then return some (← workflow.checkMode mode.code)
    else if (workflow.firstStep? mode).isSome then return some mode
    else return workflow.layout.modes.head?

end Workflow

end WorkflowBundle
