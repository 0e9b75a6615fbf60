/-
This file finds the step directories of a workflow.
-/

import WorkflowBundle.FileTree.Resolve
import WorkflowBundle.Workflow.Mode
import WorkflowBundle.Workflow.StepName

namespace WorkflowBundle

/-- The steps of a mode are in a directory and start with a first one. -/
structure ModeSteps where
  directory : Path
  firstStep : Path
deriving DecidableEq

/-- A layout has steps for some of the modes. -/
structure Layout where
  create : Option ModeSteps := none
  validate : Option ModeSteps := none
  edit : Option ModeSteps := none
deriving DecidableEq

namespace Layout

def steps? (layout : Layout) : Mode → Option ModeSteps
  | .create => layout.create
  | .validate => layout.validate
  | .edit => layout.edit

/-- The modes that have steps, in the order of preference. -/
def modes (layout : Layout) : List Mode :=
  Mode.all.filter fun mode => (layout.steps? mode).isSome

def isEmpty (layout : Layout) : Bool :=
  layout.modes.isEmpty

def firstStep? (layout : Layout) (mode : Mode) : Option Path :=
  (layout.steps? mode).map ModeSteps.firstStep

/-- The first step of the preferred mode among those that have steps. -/
def preferredStep? (layout : Layout) : Option Path :=
  Mode.all.findSome? layout.firstStep?

/-- A workflow without steps is a single document. -/
def kind (layout : Layout) : WorkflowKind :=
  if layout.isEmpty then .single else .triModal

/-- The steps of a mode are there when its directory has a step file. -/
def detectMode (tree : FileTree) (workflow : Path) (mode : Mode) : Option ModeSteps :=
  let directory := workflow.join mode.directory
  if tree.isDirectory directory then
    (StepName.first? (tree.filesIn directory)).map fun firstStep => ⟨directory, firstStep⟩
  else none

def detect (tree : FileTree) (workflow : Path) : Layout where
  create := detectMode tree workflow .create
  validate := detectMode tree workflow .validate
  edit := detectMode tree workflow .edit

end Layout

end WorkflowBundle
