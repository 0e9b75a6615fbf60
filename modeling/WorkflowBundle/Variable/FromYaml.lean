/-
This file makes variables of the values of YAML documents.
-/

import WorkflowBundle.Variable.Value
import WorkflowBundle.Yaml.Basic

namespace WorkflowBundle.Variable

/-- A scalar becomes a variable of its kind, integers beyond 63 bits become binary numbers,
collections become their JSON text, and null becomes nothing. -/
def Value.ofYaml? : Yaml → Option Value
  | .null => none
  | .boolean value => some (.boolean value)
  | .integer value => some (if value < Nat.pow 2 63 then .integer value else .binary (.ofInt value))
  | .binary value => some (.binary value)
  | .string content => some (.ofText content)
  | .tagged _ value => ofYaml? value
  | .sequence items => (Yaml.toJson? (.sequence items)).map fun json => .text json.write
  | .mapping entries => (Yaml.toJson? (.mapping entries)).map fun json => .text json.write

/-- An entry of a mapping is a variable when its key is a string and its value becomes one. -/
def entry? (entry : Yaml × Yaml) : Option (String × Value) := do
  let name ← entry.1.text?
  let value ← Value.ofYaml? entry.2
  some (name, value)

def Table.overlayYaml (table : Table) (mapping : Yaml.Mapping) : Table :=
  (mapping.filterMap entry?).foldl (fun result entry => result.insert entry.1 entry.2) table

end WorkflowBundle.Variable
