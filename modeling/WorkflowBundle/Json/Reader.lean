/-
This file builds JSON values from tokens, one token after the other.
-/

import WorkflowBundle.Json.Token

namespace WorkflowBundle.Json

/-- An open container holds what was read of it, the latest part first. -/
inductive Frame where
  | array (items : List Json)
  | object (fields : List (String × Json)) (name : Option String)

/-- A reading waits for a value, for a first part or a closing bracket, for a name, for the colon
behind a name, for the end of a part, or for nothing. -/
inductive Expectation where
  | value
  | valueOrClose
  | name
  | nameOrClose
  | colon
  | separator
  | nothing

/-- The state of a reading is the open containers, what may come next, and the finished value. -/
structure Reading where
  frames : List Frame
  expectation : Expectation
  result : Option Json

/-- A reading starts with no container and waits for a value. -/
def Reading.start : Reading := ⟨[], .value, none⟩

/-- A finished value becomes a part of the innermost container, or the result. -/
def Reading.complete (frames : List Frame) (value : Json) : Option Reading :=
  match frames with
  | [] => some ⟨[], .nothing, some value⟩
  | .array items :: outer => some ⟨.array (value :: items) :: outer, .separator, none⟩
  | .object fields (some name) :: outer =>
    some ⟨.object ((name, value) :: fields) none :: outer, .separator, none⟩
  | .object _ none :: _ => none

/-- A token takes a reading one step further, or it does not fit. -/
def Reading.step (reading : Reading) (token : Token) : Option Reading :=
  match reading.expectation, token, reading.frames with
  | .value, .scalar value, frames | .valueOrClose, .scalar value, frames =>
    Reading.complete frames value
  | .value, .openArray, frames | .valueOrClose, .openArray, frames =>
    some ⟨.array [] :: frames, .valueOrClose, none⟩
  | .value, .openObject, frames | .valueOrClose, .openObject, frames =>
    some ⟨.object [] none :: frames, .nameOrClose, none⟩
  | .valueOrClose, .closeArray, .array items :: outer
  | .separator, .closeArray, .array items :: outer =>
    Reading.complete outer (.array items.reverse)
  | .name, .scalar (.string name), .object fields _ :: outer
  | .nameOrClose, .scalar (.string name), .object fields _ :: outer =>
    some ⟨.object fields (some name) :: outer, .colon, none⟩
  | .nameOrClose, .closeObject, .object fields _ :: outer
  | .separator, .closeObject, .object fields _ :: outer =>
    Reading.complete outer (.object fields.reverse)
  | .colon, .colon, frames => some ⟨frames, .value, none⟩
  | .separator, .comma, .array items :: outer => some ⟨.array items :: outer, .value, none⟩
  | .separator, .comma, .object fields name :: outer =>
    some ⟨.object fields name :: outer, .name, none⟩
  | _, _, _ => none

/-- Tokens are a value when each of them fits and the last one finishes it. -/
def ofTokens? (tokens : List Token) : Option Json :=
  (tokens.foldlM Reading.step Reading.start).bind Reading.result

def parse? (text : String) : Option Json :=
  (tokens? text).bind ofTokens?

end WorkflowBundle.Json
