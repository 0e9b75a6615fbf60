/-
This file holds what a compilation is asked for besides the workflow itself.
-/

import WorkflowBundle.Configuration.Reader
import WorkflowBundle.Variable.Value
import WorkflowBundle.Workflow.Basic

namespace WorkflowBundle

/-- A context has a project with its folders and its configuration, the variables of the run, extra
files for the bundle, the date, and perhaps a workflow that is parsed already. -/
structure Context where
  root : Path
  outputFolder : Path
  projectKnowledge : Option Path := none
  configuration : Configuration := {}
  bindings : Variable.Table := ∅
  workflow : Option Workflow := none
  contextFiles : List (Path × String) := []
  linksOnly : Bool := false
  date : String

namespace Context

def defaultOutputFolder : String := "_output"

/-- A context for a project starts with the default configuration. -/
def new (root : Path) (date : String) : Context where
  root
  outputFolder := root.join defaultOutputFolder
  date

/-- These marks stand for the project root in a configured folder. -/
def rootMarks : List String := ["\x7bproject-root\x7d", "\x7bproject_root\x7d"]

/-- A configured folder is relative to the project root, for which it may use a mark. -/
def folder (root : Path) (written : String) : Path :=
  root.join (rootMarks.foldl (fun text mark => Text.replace mark root.text text) written)

/-- A configuration is applied together with the folders it names. -/
def withConfiguration (context : Context) (configuration : Configuration) : Context :=
  { context with
    configuration
    outputFolder :=
      (configuration.paths.outputFolder.map (folder context.root)).getD context.outputFolder
    projectKnowledge :=
      (configuration.paths.projectKnowledge.map (folder context.root)).or
        context.projectKnowledge }

def ofProject (tree : FileTree) (root : Path) (date : String) : Except InputFault Context :=
  (Configuration.discover tree root).map (new root date).withConfiguration

end Context

end WorkflowBundle
