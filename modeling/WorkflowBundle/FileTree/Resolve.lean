/-
This file follows paths through a tree: `..` steps, symbolic links and missing names.
-/

import WorkflowBundle.FileTree.Basic

namespace WorkflowBundle.FileTree

/-- Following pieces ends at a location, at a fault, or at a link that has to be read. -/
inductive Stop where
  | location (names : List String)
  | fault (cause : Fault)
  | link (base : List String) (target : Path) (rest : List (List Char))

/-- Every piece needs a directory to start from, and a link interrupts the way. -/
def follow (tree : FileTree) (location : List String) : List (List Char) → Stop
  | [] => .location location
  | piece :: rest =>
    if tree.holdsDirectory location then
      match Path.componentOf? piece with
      | some .parent => follow tree location.dropLast rest
      | some (.name name) =>
        match tree.entry? (location ++ [name]) with
        | none => .fault .notFound
        | some (.link target) => .link location target rest
        | some _ => follow tree (location ++ [name]) rest
      | _ => follow tree location rest
    else .fault .notDirectory

/-- An absolute path starts at the root, and a relative one at the given location. -/
def startOf (location : List String) (path : Path) : List String :=
  if path.isAbsolute then [] else location

/-- Only the pieces behind a leading slash are steps from the start. -/
def stepsOf (path : Path) : List (List Char) :=
  if path.isAbsolute then path.pieces.tail else path.pieces

/-- A way through a tree reads a limited number of links. -/
def followLinks (tree : FileTree) :
    Nat → List String → List (List Char) → Except Fault (List String)
  | links, location, steps =>
    match follow tree location steps with
    | .location names => .ok names
    | .fault cause => .error cause
    | .link base target rest =>
      match links with
      | 0 => .error .tooManyLinks
      | links + 1 =>
        if target.text.isEmpty then .error .notFound
        else followLinks tree links (startOf base target) (stepsOf target ++ rest)

def linkLimit : Nat := 40

/-- The location of a path is where its components and links lead. -/
def locate (tree : FileTree) (path : Path) : Except Fault (List String) :=
  if path.text.isEmpty then .error .notFound
  else followLinks tree linkLimit (startOf tree.workingDirectory path) (stepsOf path)

/-- The canonical form of a path is the absolute path of its location. -/
def canonical (tree : FileTree) (path : Path) : Except Fault Path :=
  (tree.locate path).map Path.ofNames

/-- A path that leads nowhere stands for itself. -/
def canonicalOrSelf (tree : FileTree) (path : Path) : Path :=
  match tree.canonical path with
  | .ok resolved => resolved
  | .error _ => path

def exists? (tree : FileTree) (path : Path) : Bool :=
  (tree.locate path).isOk

/-- The entry of a path is the one its way ends at. -/
def entryAt? (tree : FileTree) (path : Path) : Option Entry :=
  (tree.locate path).toOption.bind tree.entry?

def isFile (tree : FileTree) (path : Path) : Bool :=
  match tree.entryAt? path with
  | some (.file _) => true
  | _ => false

def isDirectory (tree : FileTree) (path : Path) : Bool :=
  match tree.entryAt? path with
  | some .directory => true
  | _ => false

/-- Reading a path yields the text of the file it leads to. -/
def read (tree : FileTree) (path : Path) : Except Fault String := do
  let location ← tree.locate path
  match tree.entry? location with
  | some (.file content) =>
    match String.fromUTF8? content with
    | some text => .ok text
    | none => .error .notText
  | some .directory => .error .isDirectory
  | _ => .error .notFound

/-- The children of a location are the names listed directly below it. -/
def children (tree : FileTree) (location : List String) : List String :=
  tree.entries.filterMap fun entry =>
    if entry.1.dropLast == location then entry.1.getLast? else none

/-- A directory lists the paths of the files in it, each below the path it was asked by. -/
def filesIn (tree : FileTree) (directory : Path) : List Path :=
  match tree.locate directory with
  | .error _ => []
  | .ok location =>
    if tree.holdsDirectory location then
      ((tree.children location).map directory.join).filter tree.isFile
    else []

end WorkflowBundle.FileTree
