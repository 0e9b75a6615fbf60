/-
This file reads the part of the file system that a request is about into a file tree.
-/

import WorkflowBundle.CommandLine.Arguments
import WorkflowBundle.FileTree.Edit

namespace WorkflowBundle.CommandLine

/-- A snapshot is a tree with the directories whose content is read already. -/
structure Snapshot where
  tree : FileTree
  completed : List (List String)

namespace Snapshot

/-- The names on an absolute path without links. -/
def namesOf (path : String) : List String :=
  (Path.mk path).components.filterMap fun component =>
    match component with
    | .name text => some text
    | _ => none

/-- An entry is added below directories. -/
def set (snapshot : Snapshot) (location : List String) (entry : Entry) : Snapshot :=
  { snapshot with
    tree := (snapshot.tree.addDirectories location.dropLast).setEntry location entry }

/-- A location that leads elsewhere is a link to where it leads, a directory is added with all of
its content, and what cannot be read is left out. -/
partial def add (snapshot : Snapshot) (location : List String) : IO Snapshot := do
  let path := Path.ofNames location
  match ← (IO.FS.realPath path.text).toBaseIO with
  | .error _ => return snapshot
  | .ok resolved =>
    if resolved.toString != path.text then
      (snapshot.set location (.link ⟨resolved.toString⟩)).add (namesOf resolved.toString)
    else if ← resolved.isDir then
      if snapshot.completed.contains location then return snapshot
      let mut grown : Snapshot :=
        ⟨snapshot.tree.addDirectories location, location :: snapshot.completed⟩
      for child in ← resolved.readDir do
        grown ← grown.add (location ++ [child.fileName])
      return grown
    else
      match ← (IO.FS.readBinFile resolved).toBaseIO with
      | .ok content => return snapshot.set location (.file content)
      | .error _ => return snapshot

/-- The links on the way of a path are added as well as what the path leads to. -/
partial def addPath (snapshot : Snapshot) (location : List String) :
    List Path.Component → IO Snapshot
  | [] => snapshot.add location
  | .root :: rest => snapshot.addPath [] rest
  | .current :: rest => snapshot.addPath location rest
  | .parent :: rest => snapshot.addPath location.dropLast rest
  | .name text :: rest => do
    let path := Path.ofNames (location ++ [text])
    match ← (IO.FS.realPath path.text).toBaseIO with
    | .error _ => return snapshot
    | .ok resolved =>
      let grown :=
        if resolved.toString == path.text then snapshot
        else snapshot.set (location ++ [text]) (.link ⟨resolved.toString⟩)
      grown.addPath (namesOf resolved.toString) rest

/-- The paths of a request are the workflow, the project and the named files. -/
def pathsOf (options : Options) : List Path :=
  options.projectRoot.getD ⟨"."⟩ :: options.workflow.toList ++ options.configuration.toList ++
    options.contextFiles

/-- Relative paths start at the working directory. -/
def addPaths (snapshot : Snapshot) (paths : List Path) : IO Snapshot :=
  paths.foldlM
    (fun grown path => grown.addPath snapshot.tree.workingDirectory path.components) snapshot

/-- The snapshot of a request starts at the working directory. -/
def take (workingDirectory : List String) (options : Options) : IO Snapshot :=
  addPaths ⟨{ FileTree.empty.addDirectories workingDirectory with workingDirectory }, []⟩
    (pathsOf options)

end Snapshot

end WorkflowBundle.CommandLine
