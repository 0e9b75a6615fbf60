/-
This file holds positions inside a stream of characters.
-/

import WorkflowBundle.Text.Location
import WorkflowBundle.Yaml.Character

namespace WorkflowBundle.Yaml

/-- A cursor stands before the rest of a stream, at an index, a line and a column counted from
zero. -/
structure Cursor where
  rest : List Char
  index : Nat
  line : Nat
  column : Nat

namespace Cursor

def start (text : List Char) : Cursor := ⟨text, 0, 0, 0⟩

/-- A carriage return before a line feed does not end a line. -/
def step (cursor : Cursor) : Cursor :=
  match cursor.rest with
  | [] => cursor
  | character :: rest =>
    if isBreak character && !(character == '\r' && rest.head? == some '\n') then
      ⟨rest, cursor.index + 1, cursor.line + 1, 0⟩
    else ⟨rest, cursor.index + 1, cursor.line, cursor.column + 1⟩

def advance : Nat → Cursor → Cursor
  | 0, cursor => cursor
  | count + 1, cursor => advance count cursor.step

def moveTo (cursor : Cursor) (rest : List Char) : Cursor :=
  cursor.advance (cursor.rest.length - rest.length)

def skipWhile (cursor : Cursor) (accepts : Char → Bool) : Cursor :=
  cursor.moveTo (cursor.rest.dropWhile accepts)

/-- A break of two characters is passed as one. -/
def skipBreak (cursor : Cursor) : Cursor :=
  match cursor.rest with
  | '\r' :: '\n' :: _ => cursor.advance 2
  | character :: _ => if isBreak character then cursor.step else cursor
  | [] => cursor

/-- A comment reaches to the end of its line. -/
def skipComment (cursor : Cursor) : Cursor :=
  if cursor.rest.head? == some '#' then cursor.skipWhile fun character => !isBreak character
  else cursor

/-- Lines and columns are shown counted from one. -/
def location (cursor : Cursor) : Location :=
  ⟨cursor.line + 1, cursor.column + 1⟩

end Cursor

end WorkflowBundle.Yaml
