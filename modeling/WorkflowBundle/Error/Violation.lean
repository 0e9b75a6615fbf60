/-
This file lists the rules a compilation can break, with the report each of them gives.
-/

import WorkflowBundle.Error.Report
import WorkflowBundle.FileTree.Basic
import WorkflowBundle.Path.Escape
import WorkflowBundle.Workflow.Mode

namespace WorkflowBundle

/-- A parsed workflow can be inconsistent with itself or with the file tree. -/
inductive Inconsistency where
  | emptyName
  | kindMismatch (kind : WorkflowKind) (modal : Bool)
  | missingInstructions (path : Path)
  | missingFirstStep (mode : Mode) (path : Path)
deriving DecidableEq

/-- An inconsistency is shown with what disagrees. -/
def Inconsistency.message : Inconsistency → String
  | .emptyName => "Workflow has an empty name"
  | .kindMismatch kind modal =>
    s!"Workflow type '{kind.name}' disagrees with has_tri_modal={modal}"
  | .missingInstructions path => s!"Instructions file not found: {path.text}"
  | .missingFirstStep mode path => s!"First {mode.directory} step not found: {path.text}"

/-- A violation is a broken rule together with what broke it. -/
inductive Violation where
  | missingWorkflow (path : Path)
  | inconsistent (cause : Inconsistency)
  | escapingReference (escape : Escape)
  | escapingStep (escape : Escape) (step : Path)
  | missingFirstStep (path : Path)
  | unreadableStep (path : Path) (fault : FileTree.Fault)
  | repeatedStep (path : Path) (steps : Nat)
  | longChain (path : Path) (limit : Nat)
  | circularVariable (chain : List String) (name : String)
  | deepVariable (name : String) (limit : Nat)
  | missingVariable (name : String) (workflow : String)
  | unknownMode (text : String)
  | modeWithoutSteps (text : String) (workflow : String)
  | unavailableMode (text : String) (workflow : String) (available : List Mode)
deriving DecidableEq

/-- Violations are told apart by what kind of rule is broken. -/
inductive ViolationKind where
  | missingDirectory
  | missingFile
  | pathTraversal
  | circularReference
  | depthExceeded
  | missingVariable
  | invalidMode
deriving DecidableEq

namespace Violation

/-- The kind of a violation follows from its cause. -/
def kind : Violation → ViolationKind
  | .missingWorkflow _ | .inconsistent (.kindMismatch ..) => .missingDirectory
  | .inconsistent _ | .missingFirstStep _ | .unreadableStep .. => .missingFile
  | .escapingReference _ | .escapingStep .. => .pathTraversal
  | .repeatedStep .. | .circularVariable .. => .circularReference
  | .longChain .. | .deepVariable .. => .depthExceeded
  | .missingVariable .. => .missingVariable
  | .unknownMode _ | .modeWithoutSteps .. | .unavailableMode .. => .invalidMode

/-- The message says which rule is broken by what. -/
def message : Violation → String
  | .missingWorkflow path => s!"Workflow directory not found: {path.text}"
  | .inconsistent cause => cause.message
  | .escapingReference escape => escape.message
  | .escapingStep escape step => s!"{escape.message} in {step.text}"
  | .missingFirstStep path => s!"First step file not found: {path.text}"
  | .unreadableStep path fault => s!"Cannot read step file {path.text}: {fault.message}"
  | .repeatedStep path steps =>
    s!"Circular step reference: {path.text} is reached again after {steps} steps"
  | .longChain path limit => s!"Step chain exceeds maximum depth of {limit} steps at {path.text}"
  | .circularVariable chain name =>
    let way := Text.join " -> " (chain ++ [name])
    s!"Cannot resolve variable '{name}': circular reference detected ({way})"
  | .deepVariable name limit =>
    s!"Cannot resolve variable '{name}': nesting exceeds {limit} levels"
  | .missingVariable name workflow =>
    s!"Required variable '{name}' is not set for workflow '{workflow}'"
  | .unknownMode text => s!"Unknown workflow mode: '{text}'"
  | .modeWithoutSteps text workflow =>
    s!"Mode '{text}' not available for workflow '{workflow}': it has no step directories"
  | .unavailableMode text workflow _ =>
    s!"Mode '{text}' not available for workflow '{workflow}'"

/-- The reason is given where the rule does not explain itself. -/
def why? : Violation → Option String
  | .missingWorkflow _ =>
    some "The workflow directory holds the configuration and instructions to compile"
  | .escapingStep .. =>
    some "Step chains may only link to files inside the workflow directory"
  | .missingFirstStep _ => some "The step chain starts at the first step of the selected mode"
  | .unreadableStep .. =>
    some "Each step file contributes one section of the workflow instructions"
  | .repeatedStep .. => some "Step chains are read once, from first step to last"
  | .circularVariable .. =>
    some "Variables are expanded against each other before substitution"
  | .missingVariable .. => some "The workflow lists it in required_variables"
  | _ => none

/-- The suggestion names a remedy. -/
def suggestion : Violation → String
  | .missingWorkflow _ =>
    "Check the workflow path, or pass a pre-parsed workflow in the context"
  | .inconsistent .emptyName => "Set a non-empty `name` in workflow.yaml"
  | .inconsistent (.kindMismatch ..) =>
    "Re-parse the workflow directory instead of editing the parsed workflow"
  | .inconsistent _ => "Restore the missing file or re-parse the workflow directory"
  | .escapingReference _ | .escapingStep .. => "Use a relative path within the workflow directory"
  | .missingFirstStep _ => "Check the step directory of the selected mode"
  | .unreadableStep .. => "Check that the step file exists and is readable"
  | .repeatedStep .. => "Remove the nextStepFile link that points back to an earlier step"
  | .longChain .. => "Merge related steps or split the workflow into separate workflows"
  | .circularVariable .. =>
    "Remove the circular dependency between the variable definitions"
  | .deepVariable .. =>
    "Simplify the variable nesting or check for indirect circular references"
  | .missingVariable name _ =>
    s!"Pass it at runtime (--var {name}=VALUE) or define it in shared_defaults"
  | .unknownMode _ => "Use one of the valid modes: c (create), v (validate), e (edit)"
  | .modeWithoutSteps .. => "Remove the mode option for macro workflows"
  | .unavailableMode _ _ available =>
    "Available modes: " ++ Text.join ", " (available.map Mode.code)

/-- A violation is reported without a file and a location. -/
def report (violation : Violation) : Report where
  message := violation.message
  suggestion := violation.suggestion
  why := violation.why?

end Violation

end WorkflowBundle
