/-
This file writes values as YAML text, with two spaces of indentation for mappings.
-/

import WorkflowBundle.Yaml.Quote

namespace WorkflowBundle.Yaml

/-- Binary numbers have a point or an exponent without plus sign, and words behind a point where
they are not finite. -/
def numberStyle : Decimal.Style where
  tie := .toEven
  positional := fun exponent => -5 ≤ exponent && exponent < 16
  wholeEnd := ".0"
  positiveExponent := "e"
  nan := ".nan"
  infinite := ".inf"
  negativeInfinite := "-.inf"

/-- A block is text on one line, literal lines behind a header, or the lines of a collection, which
may come behind a tag. A line has the size of its value, unless the value itself has breaks. -/
inductive Block where
  | line (text : String) (size : Option Nat)
  | literal (header : String) (lines : List String)
  | mapping (tag : String) (lines : List String)
  | sequence (tag : String) (lines : List String)

def indentLines (lines : List String) : List String :=
  lines.map fun line => if line.isEmpty then line else "  " ++ line

namespace Block

/-- A tag comes first, with a space behind it. -/
def withTag (tag : String) : Block → Block
  | .line text size => .line (tag ++ " " ++ text) (size.map (· + tag.utf8ByteSize))
  | .literal header lines => .literal (tag ++ " " ++ header) lines
  | .mapping _ lines => .mapping tag lines
  | .sequence _ lines => .sequence tag lines

/-- The mark of a key stands before a tag, or alone. -/
def heading (mark tag : String) : String :=
  if tag.isEmpty then mark else mark ++ " " ++ tag

/-- Behind a key a collection starts on a new line, and a sequence is not indented. -/
def afterKey (key : String) : Block → List String
  | .line text _ => [key ++ ": " ++ text]
  | .literal header lines => (key ++ ": " ++ header) :: indentLines lines
  | .mapping tag lines => heading (key ++ ":") tag :: indentLines lines
  | .sequence tag lines => heading (key ++ ":") tag :: lines

/-- Behind a mark of one character the lines of a collection start on the same line. -/
def afterMark (mark tag : String) (lines : List String) : List String :=
  if tag.isEmpty then
    match indentLines lines with
    | [] => [mark]
    | first :: rest => (mark ++ String.ofList (first.toList.drop 1)) :: rest
  else (mark ++ " " ++ tag) :: indentLines lines

def itemMark : String := "-"

/-- A block comes behind a mark of one character. A sequence with a tag is indented inside another
sequence only. -/
def after (mark : String) : Block → List String
  | .line text _ => [mark ++ " " ++ text]
  | .literal header lines => (mark ++ " " ++ header) :: indentLines lines
  | .mapping tag lines => afterMark mark tag lines
  | .sequence tag lines =>
    if tag.isEmpty || mark == itemMark then afterMark mark tag lines
    else heading mark tag :: lines

/-- A key without breaks has at most this many bytes before a colon. -/
def keyLimit : Nat := 128

/-- A small key is written before a colon, and any other key behind a question mark. -/
def entry (key value : Block) : List String :=
  match key with
  | .line text (some size) =>
    if size ≤ keyLimit then afterKey text value else after "?" key ++ after ":" value
  | _ => after "?" key ++ after ":" value

/-- A block that stands alone is its lines. -/
def alone : Block → List String
  | .line text _ => [text]
  | .literal header lines => header :: indentLines lines
  | .mapping tag lines | .sequence tag lines => if tag.isEmpty then lines else tag :: lines

end Block

/-- A string is literal lines when it has a line feed and can be, and a line otherwise. -/
def stringBlock (text : String) : Block :=
  let characters := text.toList
  if characters.contains '\n' then
    if canBeLiteral characters then .literal (literalHeader characters) (literalLines characters)
    else .line (doubleQuoted characters) none
  else .line (quoteLine text) (if characters.any isBreak then none else some text.utf8ByteSize)

def word (text : String) : Block :=
  .line text text.utf8ByteSize

mutual

/-- The block of a value. -/
def block : Yaml → Block
  | .null => word "null"
  | .boolean value => word (if value then "true" else "false")
  | .integer value => word (toString value)
  | .binary value => word (numberStyle.write value)
  | .string text => stringBlock text
  | .sequence items => if items.isEmpty then .line "[]" (some 0) else .sequence "" (itemLines items)
  | .mapping entries =>
    if entries.isEmpty then .line "\x7b\x7d" (some 0) else .mapping "" (entryLines entries)
  | .tagged tag value => (block value).withTag (tagText tag)

def itemLines : List Yaml → List String
  | [] => []
  | item :: rest => (block item).after Block.itemMark ++ itemLines rest

def entryLines : List (Yaml × Yaml) → List String
  | [] => []
  | (key, value) :: rest => Block.entry (block key) (block value) ++ entryLines rest

end

/-- This function writes a value as a document, with a break behind each line. -/
def write (value : Yaml) : String :=
  String.join (value.block.alone.map (· ++ "\n"))

end WorkflowBundle.Yaml
