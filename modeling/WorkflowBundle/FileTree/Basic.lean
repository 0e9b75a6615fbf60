/-
This file holds file trees as values: files, directories and symbolic links by their names.
-/

import WorkflowBundle.Path

namespace WorkflowBundle

/-- An entry of a tree is a file with its bytes, a directory, or a link with its target as
written. -/
inductive Entry where
  | file (content : ByteArray)
  | directory
  | link (target : Path)

def Entry.isDirectory : Entry → Bool
  | .directory => true
  | .file _ | .link _ => false

/-- A file tree lists the entries below the root, and relative paths start at its working directory.
The names of entries are Unicode texts, and only the contents of files are bytes. -/
structure FileTree where
  entries : List (List String × Entry)
  workingDirectory : List String

namespace FileTree

/-- A fault says why a path cannot be followed or read. -/
inductive Fault where
  | notFound
  | notDirectory
  | isDirectory
  | tooManyLinks
  | notText
deriving DecidableEq, Repr

/-- Faults of the file system carry its error number. -/
def Fault.message : Fault → String
  | .notFound => "No such file or directory (os error 2)"
  | .notDirectory => "Not a directory (os error 20)"
  | .isDirectory => "Is a directory (os error 21)"
  | .tooManyLinks => "Too many levels of symbolic links (os error 40)"
  | .notText => "stream did not contain valid UTF-8"

def empty : FileTree := ⟨[], []⟩

/-- The root is a directory, and all other names have the entry that the tree lists. -/
def entry? (tree : FileTree) (location : List String) : Option Entry :=
  if location.isEmpty then some .directory else tree.entries.lookup location

def holdsDirectory (tree : FileTree) (location : List String) : Bool :=
  (tree.entry? location).any Entry.isDirectory

end FileTree

end WorkflowBundle
