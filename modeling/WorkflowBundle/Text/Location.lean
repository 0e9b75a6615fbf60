/-
This file turns byte offsets of a text into lines and columns.
-/

namespace WorkflowBundle

/-- A location names a line and a column of a text, both counted from one. -/
structure Location where
  line : Nat
  column : Nat
deriving DecidableEq, Repr

namespace Location

/-- The location after some bytes counts their line feeds and the bytes behind the last of them. -/
def afterBytes (bytes : List UInt8) : Location where
  line := bytes.count 10 + 1
  column := (bytes.reverse.takeWhile (· != 10)).length + 1

/-- An offset beyond the end of the text has the location of the end. -/
def ofOffset (text : String) (offset : Nat) : Location :=
  afterBytes (text.toUTF8.toList.take offset)

def render (location : Location) : String :=
  s!"Line {location.line}, column {location.column}"

end Location

end WorkflowBundle
