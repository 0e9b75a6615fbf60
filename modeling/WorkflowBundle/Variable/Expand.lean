/-
This file replaces references by values, expanding values that refer to other variables.
-/

import WorkflowBundle.Error.Violation
import WorkflowBundle.Variable.Value

namespace WorkflowBundle.Variable

/-- A chain of variables that refer to one another has at most this many members. -/
def chainLimit : Nat := 10

/-- The text of a segment after a lookup is the value found, and a reference without value stays as
written. -/
def Segment.replacement (lookup : String → Option String) : Segment → List Char
  | .literal character => [character]
  | .reference found => ((lookup found.name).map String.toList).getD found.written

/-- Each text on the way has one chain member more, and a name that is already in the chain closes
a circle. -/
def expandWithin (table : Table) : Nat → List String → String → Except Violation String
  | 0, chain, _ => .error (.deepVariable (chain.getLastD "") chainLimit)
  | levels + 1, chain, text => do
    let parts ← (segments text).mapM fun segment =>
      match segment with
      | .literal character => .ok [character]
      | .reference found =>
        if chain.contains found.name then .error (.circularVariable chain found.name)
        else
          match table.find? found.name with
          | some (.unresolved inner) =>
            (expandWithin table levels (chain ++ [found.name]) inner).map String.toList
          | some value => .ok value.render.toList
          | none => .ok found.written
    return String.ofList parts.flatten

/-- A text is expanded from an empty chain. -/
def expandText (table : Table) (text : String) : Except Violation String :=
  expandWithin table (chainLimit + 1) [] text

/-- Values are inserted once as they are, whatever references they hold. -/
def insertValues (table : Table) (text : String) : String :=
  String.ofList ((segments text).flatMap (Segment.replacement table.text?))

/-- This function substitutes variables into a text, and where the values cannot be expanded they
are inserted as they are. -/
def substitute (table : Table) (text : String) : String :=
  match expandText table text with
  | .ok expanded => expanded
  | .error _ => insertValues table text

/-- A variable is expanded from a chain that holds its own name. -/
def expandValue (table : Table) (name : String) : Value → Except Violation Value
  | .unresolved text => (expandWithin table chainLimit [name] text).map Value.ofText
  | value => .ok value

/-- This function expands every variable of a table against the table itself. -/
def expand (table : Table) : Except Violation Table := do
  let entries ← table.entries.mapM fun (name, value) =>
    (expandValue table name value).map fun expanded => (name, expanded)
  return .ofList entries

end WorkflowBundle.Variable
