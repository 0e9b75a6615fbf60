/-
This file holds JSON values and writes them as text, on one line or indented.
-/

import WorkflowBundle.Text.Search
import WorkflowBundle.Decimal.Style

namespace WorkflowBundle

/-- A JSON value keeps its numbers as written and the fields of an object in order. -/
inductive Json where
  | null
  | boolean (value : Bool)
  | numeral (text : String)
  | string (value : String)
  | array (items : List Json)
  | object (fields : List (String × Json))
deriving Inhabited

namespace Json

def hexDigit (value : Nat) : Char :=
  (Nat.toDigits 16 (value % 16)).headD '0'

/-- Quotes, backslashes and control characters are escaped, and every other character stands for
itself. -/
def escape (character : Char) : List Char :=
  if character == '"' then ['\\', '"']
  else if character == '\\' then ['\\', '\\']
  else if character == '\x08' then ['\\', 'b']
  else if character == '\x0c' then ['\\', 'f']
  else if character == '\n' then ['\\', 'n']
  else if character == '\r' then ['\\', 'r']
  else if character == '\t' then ['\\', 't']
  else if character.toNat < 0x20 then
    ['\\', 'u', '0', '0', hexDigit (character.toNat / 16), hexDigit character.toNat]
  else [character]

def quote (text : String) : String :=
  String.ofList ('"' :: text.toList.flatMap escape ++ ['"'])

/-- Numbers that are no integers have a point or an exponent, and exponents below -5 and from 16 on
are written with their sign. -/
def numberStyle : Decimal.Style where
  tie := .toEven
  positional := fun exponent => -5 ≤ exponent && exponent < 16
  wholeEnd := ".0"
  positiveExponent := "e+"
  nan := "null"
  infinite := "null"
  negativeInfinite := "null"

/-- An integer is the number of its decimal digits. -/
def ofInt (integer : Int) : Json :=
  .numeral (toString integer)

/-- A binary number is a number when it is finite, and null otherwise. -/
def ofBinary64 (number : Binary64) : Json :=
  if number.isFinite then .numeral (numberStyle.write number) else .null

/-- A layout fixes what separates the parts of a container at a depth and what follows a name. -/
structure Layout where
  newline : Nat → String
  afterName : String

/-- The compact layout has no white space. -/
def Layout.compact : Layout := ⟨fun _ => "", ":"⟩

/-- The indented layout starts each item on a line of its own, two spaces deeper. -/
def Layout.indented : Layout :=
  ⟨fun depth => String.ofList ('\n' :: List.replicate (2 * depth) ' '), ": "⟩

/-- The written parts of a container stand between its brackets, and an empty container has nothing
between them. -/
def enclose (layout : Layout) (depth : Nat) (opening closing : String) (parts : List String) :
    String :=
  if parts.isEmpty then opening ++ closing
  else
    opening ++ layout.newline (depth + 1) ++
      Text.join ("," ++ layout.newline (depth + 1)) parts ++ layout.newline depth ++ closing

mutual

/-- This function writes a value at a depth. -/
def writeAt (layout : Layout) (depth : Nat) : Json → String
  | .null => "null"
  | .boolean value => if value then "true" else "false"
  | .numeral text => text
  | .string value => quote value
  | .array items => enclose layout depth "[" "]" (writeItems layout (depth + 1) items)
  | .object fields => enclose layout depth "\x7b" "\x7d" (writeFields layout (depth + 1) fields)

def writeItems (layout : Layout) (depth : Nat) : List Json → List String
  | [] => []
  | item :: rest => writeAt layout depth item :: writeItems layout depth rest

/-- A field is written as its name and its value. -/
def writeFields (layout : Layout) (depth : Nat) : List (String × Json) → List String
  | [] => []
  | (name, value) :: rest =>
    (quote name ++ layout.afterName ++ writeAt layout depth value) ::
      writeFields layout depth rest

end

/-- A value is written without white space. -/
def write (value : Json) : String :=
  value.writeAt .compact 0

/-- An absent option leaves its field out. -/
def optionalField (name : String) (value : Option Json) : List (String × Json) :=
  value.toList.map fun present => (name, present)

end Json

end WorkflowBundle
