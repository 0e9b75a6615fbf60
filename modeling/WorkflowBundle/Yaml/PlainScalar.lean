/-
This file reads scalars without quotes.
-/

import WorkflowBundle.Yaml.Fold

namespace WorkflowBundle.Yaml

/-- A plain scalar has its folded text, the rest of the stream, and whether a break was passed
behind the last word. -/
structure PlainScalar where
  text : List Char
  rest : List Char
  broken : Bool

namespace PlainScalar

def prepend (characters : List Char) (scalar : PlainScalar) : PlainScalar :=
  { scalar with text := characters ++ scalar.text }

/-- A colon ends a scalar before white space, and inside flow collections the flow marks end it
too. -/
def isEnd (flow : Bool) (text : List Char) : Bool :=
  match text with
  | [] => true
  | character :: rest =>
    (character == ':' && startsWithSpace rest) || (flow && isFlowMark character)

/-- Behind white space a scalar also ends at a document mark, at a comment, and outside of flow
collections at a lesser indentation. -/
def isEndOfLine (flow : Bool) (indent column : Nat) (text : List Char) : Bool :=
  (!flow && column < indent) || (column == 0 && isDocumentMark text) || text.head? == some '#'

/-- A colon before a flow mark or a question mark may not stand inside a flow collection. -/
def isMisplacedColon (flow : Bool) (text : List Char) : Bool :=
  match text with
  | ':' :: next :: _ => flow && (isFlowMark next || next == '?')
  | _ => false

/-- The words of a scalar are joined by the folded white space between them. -/
def readFrom (flow : Bool) (indent : Nat) :
    Nat → Fold → List Char → Except String PlainScalar
  | _, fold, [] => .ok ⟨[], [], fold.broken⟩
  | _, fold, '\r' :: '\n' :: rest => readFrom flow indent 0 (fold.addBreak '\n') rest
  | column, fold, character :: rest =>
    if isBreak character then readFrom flow indent 0 (fold.addBreak character) rest
    else if isBlank character then
      if fold.broken && column < indent && character == '\t' then
        .error "found a tab character that violates indentation"
      else readFrom flow indent (column + 1) (fold.addBlank character) rest
    else if fold.isStarted && isEndOfLine flow indent column (character :: rest) then
      .ok ⟨[], character :: rest, fold.broken⟩
    else if isMisplacedColon flow (character :: rest) then .error "found unexpected ':'"
    else if isEnd flow (character :: rest) then .ok ⟨[], character :: rest, fold.broken⟩
    else
      (readFrom flow indent (column + 1) .empty rest).map
        (prepend (fold.joined ++ [character]))

/-- A plain scalar starts with its first word. -/
def read (flow : Bool) (indent column : Nat) (text : List Char) : Except String PlainScalar :=
  readFrom flow indent column .empty text

end PlainScalar

end WorkflowBundle.Yaml
