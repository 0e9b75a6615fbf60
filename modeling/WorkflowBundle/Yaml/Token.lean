/-
This file lists the tokens of a YAML stream and the faults of reading one.
-/

import WorkflowBundle.Text.Location

namespace WorkflowBundle.Yaml

/-- A fault names what is wrong with a stream and, if known, where. -/
structure Fault where
  problem : String
  location : Option Location := none
deriving DecidableEq

def Fault.message (fault : Fault) : String :=
  match fault.location with
  | some location => s!"{fault.problem} at line {location.line} column {location.column}"
  | none => fault.problem

/-- A scalar is written without quotes, as literal lines, or in another way. -/
inductive Style where
  | plain
  | literal
  | other
deriving DecidableEq, Repr

/-- A lexeme is a mark of the structure, a property of a node, or a scalar. -/
inductive Lexeme where
  | version (major minor : Nat)
  | tagDirective (handle expansion : String)
  | documentStart
  | documentEnd
  | blockSequence
  | blockMapping
  | blockEnd
  | flowSequence
  | flowSequenceEnd
  | flowMapping
  | flowMappingEnd
  | entry
  | flowEntry
  | key
  | value
  | alias (name : String)
  | anchor (name : String)
  | tag (handle suffix : String)
  | scalar (style : Style) (text : String)
deriving DecidableEq

/-- A token is a lexeme at a location. -/
structure Token where
  lexeme : Lexeme
  location : Location

end WorkflowBundle.Yaml
