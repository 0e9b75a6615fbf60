/-
This file reads scalars written as indented lines.
-/

import WorkflowBundle.Yaml.Fold

namespace WorkflowBundle.Yaml.BlockScalar

/-- At the end of a scalar its last break is kept, all breaks are kept, or none is. -/
inductive Chomping where
  | clip
  | keep
  | strip
deriving DecidableEq

/-- A header fixes how the scalar ends and may give its indentation. -/
structure Header where
  chomping : Chomping := .clip
  increment : Option Nat := none

/-- The sign of a header fixes the chomping. -/
def takeSign : List Char → Option Chomping × List Char
  | '+' :: rest => (some .keep, rest)
  | '-' :: rest => (some .strip, rest)
  | text => (none, text)

/-- The digit of a header is the indentation below the collection around the scalar. -/
def takeDigit : List Char → Option Nat × List Char
  | [] => (none, [])
  | character :: rest =>
    if character.isDigit then (some (character.toNat - '0'.toNat), rest)
    else (none, character :: rest)

/-- A header is a sign and a digit in either order, each may be missing, and the digit is not
zero. -/
def readHeader (text : List Char) : Except String (Header × List Char) :=
  let (sign, afterSign) := takeSign text
  let (increment, afterDigit) := takeDigit afterSign
  let (chomping, rest) := if sign.isSome then (sign, afterDigit) else takeSign afterDigit
  if increment = some 0 then .error "found an indentation indicator equal to 0"
  else .ok (⟨chomping.getD .clip, increment⟩, rest)

/-- Between two lines a scalar has the break behind the first of them, the breaks of blank lines,
and whether the first line began with a blank. -/
structure Gap where
  firstBreak : List Char := []
  moreBreaks : List Char := []
  afterBlank : Bool := false

/-- In a folded scalar a single break between lines that do not begin with a blank is a space, and
the first of several breaks is dropped. -/
def Gap.joined (gap : Gap) (folded beforeBlank : Bool) : List Char :=
  if folded && gap.firstBreak == ['\n'] && !gap.afterBlank && !beforeBlank then
    if gap.moreBreaks.isEmpty then [' '] else gap.moreBreaks
  else gap.firstBreak ++ gap.moreBreaks

/-- The chomping decides which breaks of the last gap stay. -/
def Gap.ending (gap : Gap) : Chomping → List Char
  | .strip => []
  | .clip => gap.firstBreak
  | .keep => gap.firstBreak ++ gap.moreBreaks

/-- A reading is inside a line, or in the white space before one. Its indentation is zero until the
first line fixes it. -/
structure Reading where
  inLine : Bool
  indent : Nat
  column : Nat
  widest : Nat
  gap : Gap

/-- The indentation of a scalar is that of its widest beginning, but at least one more than that of
the collection around it. -/
def Reading.settledIndent (reading : Reading) (least : Nat) : Nat :=
  if reading.indent = 0 then max (max reading.widest reading.column) (max least 1)
  else reading.indent

/-- A column lies within an indentation that is not fixed or not reached. -/
def Reading.isIndenting (reading : Reading) : Bool :=
  reading.indent = 0 || reading.column < reading.indent

/-- A break in the white space before a line. -/
def Reading.blankLine (reading : Reading) (character : Char) : Reading :=
  { reading with
    column := 0
    widest := max reading.widest reading.column
    gap := { reading.gap with moreBreaks := reading.gap.moreBreaks ++ [normalBreak character] } }

/-- The break at the end of a line opens a gap. -/
def Reading.endLine (reading : Reading) (character : Char) : Reading :=
  { reading with
    inLine := false
    column := 0
    gap := { reading.gap with firstBreak := [normalBreak character], moreBreaks := [] } }

/-- Lines are read as long as they are indented, and what follows the last one is the rest. -/
def readFrom (folded : Bool) (chomping : Chomping) (least : Nat) :
    Reading → List Char → Except String (List Char × List Char)
  | reading, [] => .ok (reading.gap.ending chomping, [])
  | reading, '\r' :: '\n' :: rest =>
    readFrom folded chomping least
      (if reading.inLine then reading.endLine '\n' else reading.blankLine '\n') rest
  | reading, character :: rest =>
    if isBreak character then
      readFrom folded chomping least
        (if reading.inLine then reading.endLine character else reading.blankLine character) rest
    else if reading.inLine then
      (readFrom folded chomping least reading rest).map fun (text, after) =>
        (character :: text, after)
    else if reading.isIndenting && character == ' ' then
      readFrom folded chomping least { reading with column := reading.column + 1 } rest
    else if reading.isIndenting && character == '\t' then
      .error "found a tab character where an indentation space is expected"
    else
      let indent := reading.settledIndent least
      if reading.column = indent then
        let line : Reading :=
          { reading with
            inLine := true, indent, gap := { afterBlank := isBlank character } }
        (readFrom folded chomping least line rest).map fun (text, after) =>
          (reading.gap.joined folded (isBlank character) ++ character :: text, after)
      else .ok (reading.gap.ending chomping, character :: rest)

/-- A block scalar is read from the line behind its header, below a collection of an
indentation. -/
def read (folded : Bool) (header : Header) (outer : Int) (text : List Char) :
    Except String (List Char × List Char) :=
  let indent := match header.increment with
    | some increment => increment + outer.toNat
    | none => 0
  readFrom folded header.chomping (outer + 1).toNat
    { inLine := false, indent, column := 0, widest := 0, gap := {} } text

end WorkflowBundle.Yaml.BlockScalar
