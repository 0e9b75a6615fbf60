/-
This file reads comma-separated values: records of fields, with the position of each record.
-/

import WorkflowBundle.Text.Blank
import WorkflowBundle.Text.Search

namespace WorkflowBundle.Csv

/-- A position counts the records before it from zero, the lines from one, and the bytes from
zero. -/
structure Position where
  record : Nat
  line : Nat
  byte : Nat
deriving DecidableEq, Repr

/-- A record has its fields and the position where the record before it ended. -/
structure Record where
  position : Position
  fields : List String
deriving DecidableEq

/-- The next character starts a record or a field, continues a field with or without quotes, or
follows a quote inside a quoted field. -/
inductive Mode where
  | recordStart
  | fieldStart
  | plain
  | quoted
  | quote
deriving DecidableEq

/-- A reading has its mode, the characters of the open field and the open record, both latest first,
where the open record starts, where the reading is, and the finished records, latest first. -/
structure Reading where
  mode : Mode
  field : List Char
  fields : List String
  start : Position
  line : Nat
  byte : Nat
  records : List Record

namespace Reading

/-- A reading starts at the first line, behind a number of bytes. -/
def startAt (byte : Nat) : Reading :=
  ⟨.recordStart, [], [], ⟨0, 1, byte⟩, 1, byte, []⟩

/-- A character is passed, and a line feed starts a line. -/
def pass (reading : Reading) (character : Char) : Reading :=
  { reading with
    line := if character == '\n' then reading.line + 1 else reading.line
    byte := reading.byte + character.utf8Size }

/-- A character joins the open field. -/
def add (reading : Reading) (mode : Mode) (character : Char) : Reading :=
  { reading with mode, field := character :: reading.field }

/-- The open field joins the open record. -/
def endField (reading : Reading) : Reading :=
  { reading with
    mode := .fieldStart
    field := []
    fields := String.ofList reading.field.reverse :: reading.fields }

/-- The open record is finished, and the next one starts where the reading is. -/
def endRecord (reading : Reading) : Reading :=
  let ended := reading.endField
  { ended with
    mode := .recordStart
    fields := []
    start := ⟨reading.start.record + 1, reading.line, reading.byte⟩
    records := ⟨reading.start, ended.fields.reverse⟩ :: reading.records }

/-- A comma or the end of a line ends a field, and any other character continues it. -/
def addUnquoted (reading : Reading) (character : Char) : Reading :=
  if character == ',' then reading.endField
  else if character == '\n' || character == '\r' then reading.endRecord
  else reading.add .plain character

/-- A quote counts at the start of a field, and inside a quoted field it is written twice. Empty
lines are skipped. -/
def step (reading : Reading) (character : Char) : Reading :=
  let passed := reading.pass character
  match reading.mode with
  | .recordStart =>
    if character == '\n' || character == '\r' then passed
    else if character == '"' then { passed with mode := .quoted }
    else passed.addUnquoted character
  | .fieldStart =>
    if character == '"' then { passed with mode := .quoted } else passed.addUnquoted character
  | .plain => passed.addUnquoted character
  | .quoted =>
    if character == '"' then { passed with mode := .quote } else passed.add .quoted character
  | .quote =>
    if character == '"' then passed.add .quoted character else passed.addUnquoted character

/-- The end of the text ends an open record. -/
def finish (reading : Reading) : List Record :=
  match reading.mode with
  | .recordStart => reading.records.reverse
  | _ => reading.endRecord.records.reverse

end Reading

/-- This function reads the records of a text behind a byte order mark. -/
def records (text : String) : List Record :=
  match text.toList with
  | '\ufeff' :: rest => (rest.foldl Reading.step (.startAt 3)).finish
  | characters => (characters.foldl Reading.step (.startAt 0)).finish

/-- A table is at fault when a record has another length than the header, or when a column that is
asked for is named twice. -/
inductive Fault where
  | unequalLength (position : Position) (found expected : Nat)
  | repeatedColumn (position : Position) (name : String)
deriving DecidableEq

namespace Fault

def position : Fault → Position
  | .unequalLength position _ _ => position
  | .repeatedColumn position _ => position

def place (fault : Fault) : String :=
  s!"record {fault.position.record} (line: {fault.position.line}, byte: {fault.position.byte})"

/-- A fault is shown with its position. -/
def message (fault : Fault) : String :=
  match fault with
  | .unequalLength _ found expected =>
    s!"CSV error: {fault.place}: found record with {found} fields, " ++
      s!"but the previous record has {expected} fields"
  | .repeatedColumn _ name => s!"CSV deserialize error: {fault.place}: duplicate field `{name}`"

end Fault

def Record.trimmed (record : Record) : List String :=
  record.fields.map Text.trim

/-- The first column whose name occurred before, among the names asked for. -/
def repeated? (asked : List String) : List String → Option String
  | [] => none
  | name :: rest =>
    (repeated? asked rest).or
      (if asked.contains name && rest.contains name then some name else none)

/-- A row pairs the names of the header with the fields of a record. -/
def row (asked header : List String) (record : Record) :
    Except Fault (List (String × String)) :=
  if record.fields.length ≠ header.length then
    .error (.unequalLength record.position record.fields.length header.length)
  else
    match repeated? asked header.reverse with
    | some name => .error (.repeatedColumn record.position name)
    | none => .ok (header.zip record.trimmed)

end WorkflowBundle.Csv
