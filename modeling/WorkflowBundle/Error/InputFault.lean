/-
This file lists the ways in which an input file can be missing or malformed, with the report each of
them gives.
-/

import WorkflowBundle.Csv
import WorkflowBundle.Error.Violation
import WorkflowBundle.Xml.WellFormed
import WorkflowBundle.Yaml.Token

namespace WorkflowBundle

/-- An input fault names a file and what is wrong with it. -/
inductive InputFault where
  | unreadableConfiguration (path : Path) (fault : FileTree.Fault)
  | malformedConfiguration (path : Path) (fault : Yaml.Fault)
  | missingDirectory (path : Path) (fault : FileTree.Fault)
  | missingDefinition (directory : Path)
  | missingDefinitionFile (path : Path)
  | unreadableDefinition (path : Path) (fault : FileTree.Fault)
  | malformedDefinition (path : Path) (fault : Yaml.Fault)
  | unstructuredDefinition (path : Path) (kind : String)
  | escapingInstructions (path : Path) (escape : Escape)
  | missingInstructions (path : Path)
  | unreadableInstructions (path : Path) (fault : FileTree.Fault)
  | forbiddenDeclaration (path : Path) (name : String) (location : Location)
  | malformedInstructions (path : Path) (fault : Xml.Fault) (location : Location)
  | malformedIndex (path : Path) (fault : Csv.Fault)
  | missingColumns (path : Path) (missing required : List String)
deriving DecidableEq

namespace InputFault

/-- A fault is reported with the path it names. -/
def report : InputFault → Report
  | .unreadableConfiguration path fault | .unreadableDefinition path fault =>
    { message := s!"Cannot read configuration file {path.text}: {fault.message}"
      suggestion := "Check file permissions and ensure the file is accessible"
      path }
  | .malformedConfiguration path fault =>
    { message := s!"Invalid configuration in {path.text}: {fault.message}"
      suggestion := "Check YAML syntax and the names of configuration sections"
      path
      location := fault.location
      why := "Provides paths, feature flags and shared variables for every workflow" }
  | .missingDirectory path fault =>
    { message := s!"Workflow directory not found: {path.text} ({fault.message})"
      suggestion := "Check the workflow directory path"
      path }
  | .missingDefinition directory =>
    { message := s!"workflow.yaml not found in: {directory.text}"
      suggestion := "Ensure the workflow directory contains workflow.yaml or workflow.md"
      path := directory
      why := "Defines workflow configuration, variables and file patterns" }
  | .missingDefinitionFile path =>
    { message := s!"Configuration file not found: {path.text}"
      suggestion := "Ensure workflow.yaml exists in the workflow directory"
      path
      why := "Contains workflow configuration and variable definitions" }
  | .malformedDefinition path fault =>
    { message := s!"Invalid YAML in {path.text}: {fault.message}"
      suggestion := "Check YAML syntax (indentation, colons, quotes)"
      path
      location := fault.location }
  | .unstructuredDefinition path kind =>
    { message :=
        s!"Invalid configuration in {path.text}: root element must be a mapping, got {kind}"
      suggestion := "Use `key: value` format at the top level, not a list or scalar"
      path }
  | .escapingInstructions path escape =>
    { message := s!"Invalid instructions path in {path.text}: {escape.message}"
      suggestion := "Use a relative path within the workflow directory"
      path }
  | .missingInstructions path =>
    { message := s!"Instructions file not found: {path.text}"
      suggestion := "Ensure the workflow directory contains instructions.xml or instructions.md"
      path
      why := "Contains workflow execution steps and actions" }
  | .unreadableInstructions path fault =>
    { message := s!"Cannot read instructions file {path.text}: {fault.message}"
      suggestion := "Check that the file exists and is readable"
      path
      why := "Instructions define what the compiled workflow asks for" }
  | .forbiddenDeclaration path name location =>
    { message := s!"{name} declaration not allowed in {path.text}"
      suggestion := "Remove DOCTYPE and ENTITY declarations from the instructions file"
      path
      location
      why := "Entity declarations can expand without bound and are never needed in instructions" }
  | .malformedInstructions path fault location =>
    { message := s!"Invalid XML in {path.text}: {fault.message}"
      suggestion :=
        "Check that every element is closed and the document has a single root element"
      path
      location
      why := "Instructions must be well-formed XML to be embedded in the compiled bundle" }
  | .malformedIndex path fault =>
    { message := s!"Failed to parse knowledge index {path.text}: {fault.message}"
      suggestion :=
        "Check that every row has the same number of fields and quotes are balanced"
      path
      location := some ⟨fault.position.line, 1⟩ }
  | .missingColumns path missing required =>
    { message := s!"Knowledge index {path.text} is missing required columns: " ++
        Text.join ", " missing
      suggestion := "Use the header row: " ++ Text.join "," required
      path }

end InputFault

/-- A compilation fails by a faulty input or by a broken rule. -/
inductive Failure where
  | input (fault : InputFault)
  | violation (violation : Violation)
deriving DecidableEq

def Failure.report : Failure → Report
  | .input fault => fault.report
  | .violation broken => broken.report

end WorkflowBundle
