/-
This file holds the values of YAML documents.
-/

import WorkflowBundle.Decimal.Binary64
import WorkflowBundle.Json.Basic

namespace WorkflowBundle

/-- A value is a scalar, a sequence, a mapping with its entries in order, or a value with a tag. -/
inductive Yaml where
  | null
  | boolean (value : Bool)
  | integer (value : Int)
  | binary (value : Binary64)
  | string (value : String)
  | sequence (items : List Yaml)
  | mapping (entries : List (Yaml × Yaml))
  | tagged (tag : String) (value : Yaml)
deriving Inhabited

namespace Yaml

/-- A mapping lists its entries in order. -/
abbrev Mapping := List (Yaml × Yaml)

mutual

/-- Values are the same if they are equal up to the order of mapping entries and the spelling of
zero. -/
def same : Yaml → Yaml → Bool
  | .null, .null => true
  | .boolean first, .boolean second => first == second
  | .integer first, .integer second => first == second
  | .binary first, .binary second => first.sameValue second
  | .string first, .string second => first == second
  | .sequence first, .sequence second => sameItems first second
  | .mapping first, .mapping second => first.length == second.length && sameEntries first second
  | .tagged tag first, .tagged other second => tag == other && same first second
  | _, _ => false

def sameItems : List Yaml → List Yaml → Bool
  | [], [] => true
  | first :: rest, second :: others => same first second && sameItems rest others
  | _, _ => false

/-- Each entry of a mapping needs an entry with the same key and value in the other one. -/
def sameEntries : List (Yaml × Yaml) → List (Yaml × Yaml) → Bool
  | [], _ => true
  | (key, value) :: rest, others =>
    (others.any fun other => same key other.1 && same value other.2) && sameEntries rest others

end

/-- A tag does not change what a value is. -/
def untagged : Yaml → Yaml
  | .tagged _ value => untagged value
  | value => value

/-- The text of a string, whatever its tag. -/
def text? (value : Yaml) : Option String :=
  match value.untagged with
  | .string text => some text
  | _ => none

def items? (value : Yaml) : Option (List Yaml) :=
  match value.untagged with
  | .sequence items => some items
  | _ => none

def entries? (value : Yaml) : Option Mapping :=
  match value.untagged with
  | .mapping entries => some entries
  | _ => none

/-- A value is called by its kind. -/
def kindName : Yaml → String
  | .null => "null"
  | .boolean _ => "boolean"
  | .integer _ | .binary _ => "number"
  | .string _ => "string"
  | .sequence _ => "list"
  | .mapping _ => "mapping"
  | .tagged .. => "tagged value"

namespace Mapping

/-- The value of a name is that of the string key without a tag. -/
def find? (mapping : Mapping) (name : String) : Option Yaml :=
  mapping.findSome? fun entry =>
    match entry.1 with
    | .string key => if key = name then some entry.2 else none
    | _ => none

/-- The text of a name is that of its string value. -/
def text? (mapping : Mapping) (name : String) : Option String :=
  (mapping.find? name).bind Yaml.text?

/-- Setting a key replaces the value where the key stands, or adds an entry at the end. -/
def set (mapping : Mapping) (key value : Yaml) : Mapping :=
  if mapping.any fun entry => same entry.1 key then
    mapping.map fun entry => if same entry.1 key then (entry.1, value) else entry
  else mapping ++ [(key, value)]

/-- The entries of an upper mapping are set over a lower one. -/
def overlay (lower upper : Mapping) : Mapping :=
  upper.foldl (fun merged entry => merged.set entry.1 entry.2) lower

end Mapping

/-- A key becomes the name of a field when it is a string, a truth value or a finite number. -/
def fieldName? : Yaml → Option String
  | .string text => some text
  | .boolean value => some (if value then "true" else "false")
  | .integer value => some (toString value)
  | .binary value => if value.isFinite then some (Json.numberStyle.write value) else none
  | _ => none

/-- A tag is shown behind an exclamation mark. -/
def tagText (tag : String) : String := "!" ++ tag

mutual

/-- A value is JSON when all of its keys are names, and a tag becomes a field around its value. -/
def toJson? : Yaml → Option Json
  | .null => some .null
  | .boolean value => some (.boolean value)
  | .integer value => some (.ofInt value)
  | .binary value => some (.ofBinary64 value)
  | .string text => some (.string text)
  | .sequence items => (itemsToJson? items).map .array
  | .mapping entries => (fieldsToJson? entries).map .object
  | .tagged tag value => (toJson? value).map fun json => .object [(tagText tag, json)]

/-- The items of a sequence are all JSON. -/
def itemsToJson? : List Yaml → Option (List Json)
  | [] => some []
  | item :: rest => do
    let first ← toJson? item
    let others ← itemsToJson? rest
    some (first :: others)

/-- The entries of a mapping are all fields. -/
def fieldsToJson? : List (Yaml × Yaml) → Option (List (String × Json))
  | [] => some []
  | (key, value) :: rest => do
    let name ← fieldName? key
    let first ← toJson? value
    let others ← fieldsToJson? rest
    some ((name, first) :: others)

end

end Yaml

end WorkflowBundle
