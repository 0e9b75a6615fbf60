/-
This file adds and removes entries of a tree.
-/

import WorkflowBundle.FileTree.Resolve

namespace WorkflowBundle.FileTree

/-- Setting an entry replaces what the location held. -/
def setEntry (tree : FileTree) (location : List String) (entry : Entry) : FileTree :=
  { tree with
    entries := tree.entries.filter (fun old => old.1 != location) ++ [(location, entry)] }

/-- A missing location becomes a directory. -/
def addDirectory (tree : FileTree) (location : List String) : FileTree :=
  if (tree.entry? location).isSome then tree else tree.setEntry location .directory

/-- Every beginning of a location becomes a directory if it is missing. -/
def addDirectories (tree : FileTree) (location : List String) : FileTree :=
  (List.range (location.length + 1)).foldl
    (fun grown count => grown.addDirectory (location.take count)) tree

/-- The place of a path is its own location, or its name below the location of its parent. -/
def placeOf (tree : FileTree) (path : Path) : List String :=
  let names := path.components.filterMap fun component =>
    match component with
    | .name text => some text
    | _ => none
  let written := if path.isAbsolute then names else tree.workingDirectory ++ names
  match path.parent?, path.fileName? with
  | some parent, some name =>
    match tree.locate parent with
    | .ok location => location ++ [name]
    | .error _ => written
  | _, _ => written

/-- A link that leads nowhere passes a new entry on to its target. -/
def passedOn (tree : FileTree) : Nat → List String → List String
  | 0, place => place
  | links + 1, place =>
    match tree.entry? place with
    | some (.link target) =>
      passedOn tree links (tree.placeOf ((Path.ofNames place.dropLast).join target.text))
    | _ => place

/-- Writing sets the entry a path leads to, after adding the directories above it. -/
def write (tree : FileTree) (path : Path) (entry : Entry) : FileTree :=
  let place := match tree.locate path with
    | .ok location => location
    | .error _ => tree.passedOn linkLimit (tree.placeOf path)
  (tree.addDirectories place.dropLast).setEntry place entry

/-- Linking sets the entry of the path itself, even where a link stood before. -/
def link (tree : FileTree) (path target : Path) : FileTree :=
  let place := tree.placeOf path
  (tree.addDirectories place.dropLast).setEntry place (.link target)

/-- Deleting removes the entry of the path itself and everything below it. -/
def delete (tree : FileTree) (path : Path) : FileTree :=
  let place := tree.placeOf path
  { tree with entries := tree.entries.filter fun old => !place.isPrefixOf old.1 }

end WorkflowBundle.FileTree
