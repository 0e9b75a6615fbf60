/-
This file runs the command line over a file tree.
-/

import WorkflowBundle.CommandLine.Arguments
import WorkflowBundle.CommandLine.Usage
import WorkflowBundle.Compilation.Compiled

namespace WorkflowBundle.CommandLine

/-- A run ends with an exit code, an output, and messages beside it. -/
structure Outcome where
  exitCode : UInt32 := 0
  output : String := ""
  messages : String := ""

/-- A run fails for one of these reasons. -/
inductive RunError where
  | missingWorkflow
  | missingRoot (path : Path)
  | unreadableFile (path : Path) (fault : FileTree.Fault)
  | failure (cause : Failure)

/-- A failed compilation is shown by its report. -/
def RunError.message : RunError → String
  | .missingWorkflow => "Missing workflow directory"
  | .missingRoot path => s!"Project root is not a directory: {path.text}"
  | .unreadableFile path fault => s!"Cannot read context file {path.text}: {fault.message}"
  | .failure cause => cause.report.render

/-- The message of an error comes behind an empty line. -/
def errorText (message : String) : String :=
  "\nError: " ++ message ++ "\n"

/-- A failed outcome keeps what was shown before the error. -/
def Outcome.fail (outcome : Outcome) (message : String) : Outcome :=
  { outcome with exitCode := 1, messages := outcome.messages ++ errorText message }

/-- The configuration is read from the file that is named, or else discovered in the project. -/
def loadConfiguration (tree : FileTree) (options : Options) (root : Path) :
    Except InputFault Configuration :=
  match options.configuration with
  | some path => Configuration.load tree path
  | none => Configuration.discover tree root

/-- A context file is kept under its canonical path. -/
def loadContextFile (tree : FileTree) (path : Path) : Except RunError (Path × String) :=
  match tree.read path with
  | .ok content => .ok (tree.canonicalOrSelf path, content)
  | .error fault => .error (.unreadableFile path fault)

/-- The mode that is asked for takes the place of a variable for it. -/
def variablesOf (options : Options) : Variable.Table :=
  .ofList <|
    (options.bindings ++ (options.mode.map fun mode => (Workflow.modeVariable, mode)).toList).map
      fun (name, text) => (name, .ofText text)

/-- The project is in the working directory unless another root is named. -/
def projectRoot (tree : FileTree) (options : Options) : Path :=
  options.projectRoot.getD (.ofNames tree.workingDirectory)

/-- The context of a run follows from its options. -/
def contextOf (tree : FileTree) (date : String) (options : Options) : Except RunError Context := do
  let root := projectRoot tree options
  if !tree.isDirectory root then throw (.missingRoot root)
  let configuration ←
    (loadConfiguration tree options root).mapError fun fault => .failure (.input fault)
  let configured := (Context.new root date).withConfiguration configuration
  let contextFiles ← options.contextFiles.mapM (loadContextFile tree)
  return { configured with
    outputFolder := options.outputFolder.getD configured.outputFolder
    bindings := variablesOf options
    contextFiles
    linksOnly := options.linksOnly }

/-- The summary of a check names the workflow, its kind, its instructions and its modes. -/
def checkLines (workflow : Workflow) : List String :=
  ["Workflow: " ++ workflow.name, "  Type:         " ++ workflow.kind.name,
    "  Instructions: " ++ workflow.instructionsPath.text] ++
    match workflow.layout.modes with
    | [] => []
    | modes => ["  Modes:        " ++ Text.join ", " (modes.map Mode.code)]

/-- A check shows a summary and notes, and whether the workflow is valid. -/
def runCheck (tree : FileTree) (directory : Path) : Outcome :=
  match Workflow.parse tree directory with
  | .error fault => ({} : Outcome).fail (RunError.failure (.input fault)).message
  | .ok workflow =>
    let lines := checkLines workflow ++ (workflow.review tree).map ("  " ++ ·)
    match workflow.validate tree with
    | .ok () => { messages := unlines (lines ++ ["Workflow is valid"]) }
    | .error broken =>
      ({ messages := unlines lines } : Outcome).fail (RunError.failure (.violation broken)).message

/-- A compiled workflow is shown as its bundle or as indented JSON. -/
def outputOf (options : Options) (compiled : Compiled) : String :=
  if options.json then compiled.toJson.writeAt .indented 0 ++ "\n" else compiled.bundle

def summary (compiled : Compiled) : String :=
  s!"\nCompiled {compiled.name} ({compiled.bindings.size} variables, ~{compiled.tokens} tokens)\n"

/-- The workflow is compiled in the context of the options. -/
def runCompile (tree : FileTree) (date : String) (options : Options) (directory : Path) : Outcome :=
  match contextOf tree date options with
  | .error cause => ({} : Outcome).fail cause.message
  | .ok context =>
    match (Workflow.compile tree context directory .empty).1 with
    | .error failure => ({} : Outcome).fail (RunError.failure failure).message
    | .ok compiled => { output := outputOf options compiled, messages := summary compiled }

/-- The template of a compiled workflow may lie outside of its directory. -/
def templateOf (tree : FileTree) (date : String) (options : Options) : Option Path := do
  let directory ← options.workflow
  let context ← (contextOf tree date options).toOption
  let workflow ← (Workflow.obtain tree context directory).toOption
  let compiled ← (Workflow.compile tree context directory .empty).1.toOption
  workflow.templatePath? compiled.bindings

/-- Without a workflow the usage is shown, and with one it is checked or compiled. -/
def runOptions (tree : FileTree) (date : String) (options : Options) : Outcome :=
  match options.workflow with
  | none => ({ output := usage } : Outcome).fail RunError.missingWorkflow.message
  | some directory =>
    if options.check then runCheck tree directory else runCompile tree date options directory

/-- This function runs the program with some arguments. Arguments that are refused are reported
before and behind the usage. -/
def run (tree : FileTree) (date : String) (arguments : List String) : Outcome :=
  match parse arguments with
  | .error refusal =>
    ({ output := usage, messages := "Error: " ++ refusal.message ++ "\n\n" } : Outcome).fail
      refusal.message
  | .ok .help => { output := usage }
  | .ok .version => { output := versionText }
  | .ok (.compile options) => runOptions tree date options

end WorkflowBundle.CommandLine
