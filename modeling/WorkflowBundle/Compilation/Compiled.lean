/-
This file compiles workflows into bundles.
-/

import WorkflowBundle.Bundle.Assemble
import WorkflowBundle.Bundle.Budget
import WorkflowBundle.Cascade.Cache
import WorkflowBundle.Compilation.Mission
import WorkflowBundle.Error.InputFault
import WorkflowBundle.Knowledge.Loader
import WorkflowBundle.Step.Chain
import WorkflowBundle.Workflow.ModeSelection
import WorkflowBundle.Workflow.Parse
import WorkflowBundle.Workflow.Validate

namespace WorkflowBundle

open Variable (Table)

/-- A compiled workflow keeps what its bundle was written from. -/
structure Compiled where
  name : String
  mission : String
  bundle : String
  bindings : Table
  instructions : String
  outputTemplate : String

namespace Compiled

def tokens (compiled : Compiled) : Nat :=
  Bundle.estimateTokens compiled.bundle

/-- A compiled workflow is a JSON object with its estimated size. -/
def toJson (compiled : Compiled) : Json :=
  .object
    [("workflow_name", .string compiled.name), ("mission", .string compiled.mission),
      ("context", .string compiled.bundle), ("variables", compiled.bindings.toJson),
      ("instructions", .string compiled.instructions),
      ("output_template", .string compiled.outputTemplate),
      ("token_estimate", .ofInt compiled.tokens)]

end Compiled

namespace Workflow

/-- The workflow of a context is the one it brings along, or else the one in the directory. -/
def obtain (tree : FileTree) (context : Context) (directory : Path) : Except Failure Workflow :=
  match context.workflow with
  | some workflow => .ok workflow
  | none =>
    if tree.isDirectory directory then (parse tree directory).mapError .input
    else .error (.violation (.missingWorkflow directory))

def requirementSetting : String := "required_variables"

/-- The required variables of a workflow are the strings of the list. -/
def requirements (workflow : Workflow) : List String :=
  (((workflow.settings.find? requirementSetting).bind Yaml.items?).getD []).filterMap Yaml.text?

def checkRequirements (workflow : Workflow) (bindings : Table) : Except Violation Unit :=
  match workflow.requirements.find? fun name => !bindings.contains name with
  | some name => .error (.missingVariable name workflow.name)
  | none => .ok ()

/-- A workflow with selectors has the knowledge that the library of the project has for it, and
knowledge that cannot be found or read is left out. -/
def knowledge? (tree : FileTree) (context : Context) (workflow : Workflow) (bindings : Table) :
    Option String :=
  let settings := context.configuration.knowledge
  match Knowledge.selectorsFor settings.selectors workflow.name with
  | [] => none
  | _ =>
    match Knowledge.Library.ofProject tree context.root settings with
    | .ok (some library) =>
      some (library.textOfWorkflow tree workflow.name (.ofVariables bindings))
        |>.filter (!·.isEmpty)
    | _ => none

def knowledgeVariable : String := "knowledge_base"

/-- The mode and the knowledge of a workflow are variables when they are present. -/
def withSelection (bindings : Table) (mode : Option Mode) (knowledge : Option String) : Table :=
  let withMode := match mode with
    | some selected => bindings.insert modeVariable (.ofText selected.code)
    | none => bindings
  match knowledge with
  | some content => withMode.insert knowledgeVariable (.ofText content)
  | none => withMode

/-- Files that can be read are added to the others, unless they are there already. -/
def addFiles (tree : FileTree) (files : List (Path × String)) (paths : List Path) :
    List (Path × String) :=
  paths.foldl
    (fun kept path =>
      if kept.any fun file => file.1.sameAs path then kept
      else
        match tree.read path with
        | .ok content => kept ++ [(path, content)]
        | .error _ => kept)
    files

/-- Instructions are the compiled chain of the mode's first step with the indexes it names, or
else the document of the workflow. -/
def compileInstructions (tree : FileTree) (context : Context) (workflow : Workflow)
    (mode : Option Mode) (bindings : Table) (knowledge : Option String) :
    Except Violation (String × List Path) :=
  match mode.bind workflow.firstStep? with
  | some first => Step.compileChain tree context.root bindings knowledge first
  | none =>
    .ok (Step.appendKnowledge (Variable.substitute bindings workflow.instructions) knowledge, [])

/-- A valid workflow is compiled with its resolved variables. -/
def compileWith (tree : FileTree) (context : Context) (workflow : Workflow) (resolved : Table) :
    Except Violation Compiled := do
  workflow.checkRequirements resolved
  let mode ← workflow.resolveMode resolved
  let knowledge := workflow.knowledge? tree context (withSelection resolved mode none)
  let bindings := withSelection resolved mode knowledge
  let (instructions, indexes) ←
    workflow.compileInstructions tree context mode bindings knowledge
  let outputTemplate := workflow.outputTemplate tree bindings
  let mission := workflow.mission mode bindings
  let bundle : Bundle := {
    name := workflow.name
    mission
    contextFiles := addFiles tree context.contextFiles indexes
    bindings
    instructions
    outputTemplate
    linksOnly := context.linksOnly }
  return {
    name := workflow.name
    mission
    bundle := bundle.write tree context.root
    bindings
    instructions
    outputTemplate }

/-- The workflow of a context must be valid. -/
def obtainValid (tree : FileTree) (context : Context) (directory : Path) :
    Except Failure Workflow := do
  let workflow ← obtain tree context directory
  (workflow.validate tree).mapError .violation
  return workflow

/-- This function compiles the workflow in a directory. The cache is used as soon as the workflow
is known to be valid. -/
def compile (tree : FileTree) (context : Context) (directory : Path) (cache : Cascade.Cache) :
    Except Failure Compiled × Cascade.Cache :=
  match obtainValid tree context directory with
  | .error failure => (.error failure, cache)
  | .ok workflow =>
    let (resolved, next) := cache.resolveWorkflow tree context workflow
    ((resolved.bind (compileWith tree context workflow)).mapError .violation, next)

end Workflow

end WorkflowBundle
