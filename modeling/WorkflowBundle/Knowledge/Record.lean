/-
This file reads fragments of knowledge from JSON records.
-/

import WorkflowBundle.Json.Record
import WorkflowBundle.Knowledge.Fragment

namespace WorkflowBundle.Fragment

def fieldNames : List String := ["id", "name", "description", "tags", "fragment_file"]

/-- The tags of a fragment are an array of strings. -/
def tagsOfJson? : Json → Option (List String)
  | .array items => (items.mapM Json.text?).map sortedSet
  | _ => none

/-- A fragment needs all of its fields. -/
def ofJson? (json : Json) : Option Fragment :=
  match Json.record? fieldNames json with
  | some [id, name, description, tags, file] => do
    some {
      id := ← id.bind Json.text?
      name := ← name.bind Json.text?
      description := ← description.bind Json.text?
      tags := ← tags.bind tagsOfJson?
      file := ← file.bind Json.text? }
  | _ => none

end WorkflowBundle.Fragment
