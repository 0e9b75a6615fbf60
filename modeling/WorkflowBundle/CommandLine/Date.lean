/-
This file writes dates.
-/

namespace WorkflowBundle.CommandLine

/-- A number is written with zeros in front until it has a width. -/
def padded (width number : Nat) : String :=
  let digits := toString number
  String.ofList (List.replicate (width - digits.length) '0') ++ digits

def dateText (year month day : Nat) : String :=
  padded 4 year ++ "-" ++ padded 2 month ++ "-" ++ padded 2 day

end WorkflowBundle.CommandLine
