/-
This file finds the references to variables inside a text.
-/

import WorkflowBundle.Text.Search

namespace WorkflowBundle.Variable

/-- The name of a variable consists of ASCII letters, digits, underscores and hyphens. -/
def isNameCharacter (character : Char) : Bool :=
  character.isAlphanum || character == '_' || character == '-'

/-- A reference keeps how it is written and which variable it names. -/
structure Reference where
  written : List Char
  name : String
deriving DecidableEq

/-- A name in marks is read when it is not empty and the closing mark follows it. -/
def enclosed? (opening closing text : List Char) : Option Reference :=
  if opening.isPrefixOf text then
    let inner := text.drop opening.length
    let name := inner.takeWhile isNameCharacter
    if !name.isEmpty && closing.isPrefixOf (inner.dropWhile isNameCharacter) then
      some ⟨opening ++ name ++ closing, String.ofList name⟩
    else none
  else none

/-- A placeholder is a name in braces. -/
def placeholder? (text : List Char) : Option Reference :=
  enclosed? ['\x7b'] ['\x7d'] text

/-- This mark before a name refers to a key of the configuration. -/
def configurationMark : List Char := "\x7bconfig_source\x7d:".toList

/-- A text starts with a reference to a key of the configuration when a name follows the mark. -/
def configurationReference? (text : List Char) : Option Reference :=
  enclosed? configurationMark [] text

/-- At one position a doubly braced name comes first, then a configuration key, then a
placeholder. -/
def reference? (text : List Char) : Option Reference :=
  (enclosed? ['\x7b', '\x7b'] ['\x7d', '\x7d'] text).or
    ((configurationReference? text).or (placeholder? text))

/-- A segment of a text is a reference or a character outside all references. -/
inductive Segment where
  | literal (character : Char)
  | reference (found : Reference)
deriving DecidableEq

/-- A segment is written as it stands in the text. -/
def Segment.written : Segment → List Char
  | .literal character => [character]
  | .reference found => found.written

/-- Scanning skips the characters of a reference that was found. -/
def segmentsFrom : Nat → List Char → List Segment
  | _, [] => []
  | pending + 1, _ :: rest => segmentsFrom pending rest
  | 0, character :: rest =>
    match reference? (character :: rest) with
    | some found => .reference found :: segmentsFrom (found.written.length - 1) rest
    | none => .literal character :: segmentsFrom 0 rest

/-- The segments of a text are its references from left to right and the characters between
them. -/
def segments (text : String) : List Segment :=
  segmentsFrom 0 text.toList

/-- The placeholders of a text start at its opening braces. -/
def placeholdersFrom : List Char → List String
  | [] => []
  | character :: rest =>
    ((placeholder? (character :: rest)).map Reference.name).toList ++ placeholdersFrom rest

/-- A text has a placeholder when some name in braces occurs in it. -/
def hasPlaceholder (text : String) : Bool :=
  !(placeholdersFrom text.toList).isEmpty

/-- Repeated names are dropped behind their first occurrence. -/
def distinct (names : List String) : List String :=
  names.foldl (fun kept name => if kept.contains name then kept else kept ++ [name]) []

/-- The placeholders of a text are listed once each, in order of appearance. -/
def placeholders (text : String) : List String :=
  distinct (placeholdersFrom text.toList)

def isConfigurationReference (text : String) : Bool :=
  (configurationReference? text.toList).isSome

end WorkflowBundle.Variable
