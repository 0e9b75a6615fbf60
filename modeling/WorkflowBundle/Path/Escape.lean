/-
This file checks that a reference stays below the directory it is joined to.
-/

import WorkflowBundle.Path

namespace WorkflowBundle

/-- A reference leaves its directory by a double dot or by starting at the root. -/
inductive Escape where
  | parent (reference : String)
  | absolute (reference : String)
deriving DecidableEq

namespace Escape

/-- An escape is shown with the reference as written. -/
def message : Escape → String
  | .parent reference => s!"Path '{reference}' contains path traversal (..)"
  | .absolute reference => s!"Path '{reference}' is absolute (path traversal)"

/-- A reference escapes when it has a double dot anywhere or starts with a slash of either kind. -/
def ofReference? (reference : String) : Option Escape :=
  if Text.contains ".." reference then some (.parent reference)
  else
    match reference.toList with
    | '/' :: _ | '\\' :: _ => some (.absolute reference)
    | _ => none

end Escape

end WorkflowBundle
