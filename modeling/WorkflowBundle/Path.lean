/-
This file reads path texts as sequences of components, without looking at any file.
-/

import WorkflowBundle.Text.Search

namespace WorkflowBundle

/-- A path keeps the text it was written with. This is a Unicode text, and so are the names in it, so
that a path is shown as a text without loss. -/
structure Path where
  text : String
deriving DecidableEq, Repr, Inhabited

namespace Path

/-- A component is the root, a leading current directory, a step to the parent, or a name, which is a
Unicode text. -/
inductive Component where
  | root
  | current
  | parent
  | name (text : String)
deriving DecidableEq, Repr

/-- The pieces of a path are the texts between its slashes. -/
def pieces (path : Path) : List (List Char) :=
  Text.pieces (· == '/') path.text.toList

/-- Empty pieces and single dots name nothing, and a double dot is a step to the parent. -/
def componentOf? (piece : List Char) : Option Component :=
  if piece.isEmpty || piece == ['.'] then none
  else if piece == ['.', '.'] then some .parent
  else some (.name (String.ofList piece))

def isStep (piece : List Char) : Bool :=
  (componentOf? piece).isSome

def isAbsolute (path : Path) : Bool :=
  path.text.toList.head? == some '/'

/-- A relative path may start at the current directory by name. -/
def startsAtCurrent (path : Path) : Bool :=
  path.pieces.head? == some ['.']

/-- The components of a path leave out repeated slashes and single dots, except a leading one. -/
def components (path : Path) : List Component :=
  let steps := path.pieces.filterMap componentOf?
  if path.isAbsolute then .root :: steps
  else if path.startsAtCurrent then .current :: steps
  else steps

def sameAs (first second : Path) : Bool :=
  first.components == second.components

def startsWith (path base : Path) : Bool :=
  base.components.isPrefixOf path.components

/-- The body of a path is what follows a leading slash or a leading dot. -/
def body (path : Path) : List (List Char) :=
  if path.isAbsolute || path.startsAtCurrent then path.pieces.tail else path.pieces

/-- Pieces are written with one slash between neighbours. -/
def writePieces (parts : List (List Char)) : List Char :=
  List.intercalate ['/'] parts

/-- This function writes the start of a path before another body. -/
def withBody (path : Path) (parts : List (List Char)) : Path where
  text := String.ofList <|
    if path.isAbsolute then '/' :: writePieces parts
    else if path.startsAtCurrent then
      if parts.isEmpty then ['.'] else '.' :: '/' :: writePieces parts
    else writePieces parts

/-- Pieces behind the last component are dropped. -/
def trimPieces (parts : List (List Char)) : List (List Char) :=
  (parts.reverse.dropWhile fun piece => !isStep piece).reverse

/-- Dropping a number of steps also drops the empty pieces between them. -/
def dropSteps : Nat → List (List Char) → List (List Char)
  | 0, parts => parts
  | _, [] => []
  | count + 1, piece :: rest =>
    if isStep piece then dropSteps count rest else dropSteps (count + 1) rest

/-- The rest of a path below a base is written as in the path itself. -/
def relativeTo? (path base : Path) : Option Path :=
  if path.startsWith base then
    match base.components with
    | [] => some (path.withBody (trimPieces path.body))
    | first :: others =>
      let steps := match first with
        | .root | .current => others.length
        | _ => others.length + 1
      let below := (dropSteps steps path.body).dropWhile fun piece => !isStep piece
      some ⟨String.ofList (writePieces (trimPieces below))⟩
  else none

/-- The parent of a path leaves out its last component, and the root has no parent. -/
def parent? (path : Path) : Option Path :=
  match path.components.getLast? with
  | none | some .root => none
  | some .current => some ⟨""⟩
  | some _ => some (path.withBody (trimPieces (trimPieces path.body).dropLast))

/-- A path has a file name when its last component is a name. -/
def fileName? (path : Path) : Option String :=
  match path.components.getLast? with
  | some (.name text) => some text
  | _ => none

/-- A file name divides at its last dot, unless nothing stands before that dot. -/
def splitName (name : String) : String × Option String :=
  let reversed := name.toList.reverse
  let ending := reversed.takeWhile (· != '.')
  match reversed.drop ending.length with
  | [] | ['.'] => (name, none)
  | _ :: stem => (String.ofList stem.reverse, some (String.ofList ending.reverse))

def fileStem? (path : Path) : Option String :=
  path.fileName?.map fun name => (splitName name).1

/-- The extension of a path follows the last dot of its file name. -/
def extension? (path : Path) : Option String :=
  path.fileName?.bind fun name => (splitName name).2

/-- Joining puts a relative path below the base, and an absolute path takes the base's place. -/
def join (base : Path) (rest : String) : Path :=
  if (Path.mk rest).isAbsolute then ⟨rest⟩
  else if base.text.isEmpty || base.text.toList.getLast? == some '/' then ⟨base.text ++ rest⟩
  else ⟨base.text ++ "/" ++ rest⟩

/-- The absolute path of a list of names starts at the root. -/
def ofNames (names : List String) : Path :=
  ⟨String.ofList ('/' :: writePieces (names.map String.toList))⟩

end Path

end WorkflowBundle
