/-
This file names the modes a workflow can be run in and the kinds of workflow.
-/

import WorkflowBundle.Text.Blank

namespace WorkflowBundle

/-- A workflow with step directories creates, validates or edits. -/
inductive Mode where
  | create
  | validate
  | edit
deriving DecidableEq, Repr

namespace Mode

def all : List Mode := [.create, .validate, .edit]

/-- A mode has a code of one letter. -/
def code : Mode → String
  | .create => "c"
  | .validate => "v"
  | .edit => "e"

/-- The steps of a mode are in a directory named for its code. -/
def directory : Mode → String
  | .create => "steps-c"
  | .validate => "steps-v"
  | .edit => "steps-e"

def label : Mode → String
  | .create => "Create"
  | .validate => "Validate"
  | .edit => "Edit"

def name : Mode → String
  | .create => "create"
  | .validate => "validate"
  | .edit => "edit"

/-- A text names a mode by code or by name in letters of either case, and blanks around it do not
count. -/
def ofText? (text : String) : Option Mode :=
  let word := String.ofList ((Text.trim text).toList.map Char.toLower)
  all.find? fun mode => word == mode.code || word == mode.name

end Mode

/-- A workflow is one document of instructions, or it has steps for some of three modes. -/
inductive WorkflowKind where
  | single
  | triModal
deriving DecidableEq, Repr

namespace WorkflowKind

def name : WorkflowKind → String
  | .single => "macro"
  | .triModal => "tri_modal"

def ofName? (word : String) : Option WorkflowKind :=
  [WorkflowKind.single, .triModal].find? fun kind => kind.name == word

end WorkflowKind

end WorkflowBundle
