/-
This file finds out how much of a test suite a review is about.
-/

import WorkflowBundle.Path
import WorkflowBundle.Text.Blank
import WorkflowBundle.Variable.Value

namespace WorkflowBundle

/-- A review is about one story, one directory or the whole suite. -/
inductive ReviewScope where
  | single
  | directory
  | suite
deriving DecidableEq, Repr

namespace ReviewScope

def name : ReviewScope → String
  | .single => "single"
  | .directory => "directory"
  | .suite => "suite"

/-- The steps of a path are its components without a leading current directory. -/
def stepsOf (path : String) : List Path.Component :=
  (Path.mk path).components.filter (· != .current)

/-- A directory is a proper subdirectory when the root's steps are a proper beginning of its
own. -/
def isProperSubdirectory (directory root : String) : Bool :=
  (stepsOf root).isPrefixOf (stepsOf directory) && stepsOf root != stepsOf directory

/-- A variable counts when its rendered value is not blank. -/
def named? (table : Variable.Table) (name : String) : Option String :=
  (table.text? name).filter fun value => !Text.isBlankText value

/-- A named story makes a review single, a named directory below the test root makes it a
directory's, and all other reviews are about the suite. -/
def ofVariables (table : Variable.Table) (testRoot : String) : ReviewScope :=
  if (named? table "story_file").isSome then .single
  else
    match (named? table "review_dir").or (named? table "test_dir") with
    | some place => if isProperSubdirectory place testRoot then .directory else .suite
    | none => .suite

end ReviewScope

end WorkflowBundle
