/-
This file holds the values of variables and tables of them by name.
-/

import WorkflowBundle.Dictionary
import WorkflowBundle.Json.Number
import WorkflowBundle.Variable.Reference

namespace WorkflowBundle.Variable

/-- A value is a truth value, a number or a text, and a text that still has placeholders is
unresolved. -/
inductive Value where
  | boolean (value : Bool)
  | integer (value : Int)
  | binary (value : Binary64)
  | text (value : String)
  | unresolved (value : String)
deriving DecidableEq, Inhabited

namespace Value

/-- A text is unresolved exactly when it has a placeholder. -/
def ofText (text : String) : Value :=
  if hasPlaceholder text then .unresolved text else .text text

/-- Numbers inside a text are written in full, and whole ones without a point. -/
def numberStyle : Decimal.Style where
  tie := .up
  positional := fun _ => true
  wholeEnd := ""
  positiveExponent := "e"
  nan := "NaN"
  infinite := "inf"
  negativeInfinite := "-inf"

/-- A value is rendered as the text that replaces a reference to it. -/
def render : Value → String
  | .boolean value => if value then "true" else "false"
  | .integer value => toString value
  | .binary value => numberStyle.write value
  | .text value | .unresolved value => value

def text? : Value → Option String
  | .text value | .unresolved value => some value
  | _ => none

def boolean? : Value → Option Bool
  | .boolean value => some value
  | _ => none

def isUnresolved : Value → Bool
  | .unresolved _ => true
  | _ => false

/-- A value is a JSON scalar. -/
def toJson : Value → Json
  | .boolean value => .boolean value
  | .integer value => .ofInt value
  | .binary value => .ofBinary64 value
  | .text value | .unresolved value => .string value

/-- A JSON scalar other than null is a value, and integers beyond 63 bits are binary numbers. -/
def ofJson? : Json → Option Value
  | .boolean value => some (.boolean value)
  | .string value => some (.text value)
  | .numeral written =>
    (Json.number? written).map fun
      | .integer value => if value < Nat.pow 2 63 then .integer value else .binary (.ofInt value)
      | .binary value => .binary value
  | _ => none

end Value

/-- A table holds variables by name. -/
abbrev Table := Dictionary Value

namespace Table

def text? (table : Table) (name : String) : Option String :=
  (table.find? name).map Value.render

def toJson (table : Table) : Json :=
  .object (table.entries.map fun (name, value) => (name, value.toJson))

/-- A JSON object of scalars is a table, and the last value of a repeated name counts. -/
def ofJson? : Json → Option Table
  | .object fields => do
    let entries ← fields.mapM fun (name, value) =>
      (Value.ofJson? value).map fun read => (name, read)
    some (.ofList entries)
  | _ => none

end Table

end WorkflowBundle.Variable
