/-
This file reads records and words from JSON values.
-/

import WorkflowBundle.Json.Basic

namespace WorkflowBundle.Json

def text? : Json → Option String
  | .string value => some value
  | _ => none

/-- The field of a name may be absent, and may not come twice. -/
def field? (fields : List (String × Json)) (name : String) : Option (Option Json) :=
  match fields.filter fun field => field.1 == name with
  | [] => some none
  | [(_, value)] => some (some value)
  | _ => none

/-- The values of a record stand under their names in an object, in which other names do not count,
or in order in an array, which may lack the last ones. -/
def record? (names : List String) : Json → Option (List (Option Json))
  | .object fields => names.mapM (field? fields)
  | .array items =>
    if items.length ≤ names.length then
      some (items.map some ++ List.replicate (names.length - items.length) none)
    else none
  | _ => none

/-- A value that may be absent may also be null. -/
def optional? {α : Type} (read : Json → Option α) : Option Json → Option (Option α)
  | none | some .null => some none
  | some value => (read value).map some

/-- A word is a string, or the only name of an object whose value is null. -/
def word? : Json → Option String
  | .string value => some value
  | .object [(name, .null)] => some name
  | _ => none

end WorkflowBundle.Json
