/-
This file holds the report that tells a user what went wrong, where, why it matters and what to do.
-/

import WorkflowBundle.Path
import WorkflowBundle.Text.Location

namespace WorkflowBundle

/-- A report names a problem and a remedy, and where they help also a file, a location in it and
the reason why the thing is needed. -/
structure Report where
  message : String
  suggestion : String
  path : Option Path := none
  location : Option Location := none
  why : Option String := none

namespace Report

/-- The location and the reason come between the problem and the remedy, one to a line. -/
def lines (report : Report) : List String :=
  [report.message] ++ (report.location.map fun location => "  " ++ location.render).toList ++
    (report.why.map fun why => "  Why it's needed: " ++ why).toList ++
    ["  Suggestion: " ++ report.suggestion]

def render (report : Report) : String :=
  Text.join "\n" report.lines

end Report

end WorkflowBundle
