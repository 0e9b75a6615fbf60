/-
This file reads indexes of knowledge from tables.
-/

import WorkflowBundle.Error.InputFault
import WorkflowBundle.FileTree.Resolve
import WorkflowBundle.Knowledge.Fragment

namespace WorkflowBundle.KnowledgeIndex

def columns : List String := ["id", "name", "description", "fragment_file", "tags"]

/-- A row is a fragment when it has an identifier and a file that stays in its directory. -/
def fragment? (row : List (String × String)) : Option Fragment :=
  let field (name : String) := (row.lookup name).getD ""
  let fragment : Fragment :=
    ⟨field "id", field "name", field "description", Fragment.parseTags (field "tags"),
      field "fragment_file"⟩
  if fragment.id.isEmpty || fragment.file.isEmpty ||
      (Escape.ofReference? fragment.file).isSome then none
  else some fragment

/-- The first record is the header, which must have every column, and the others are rows. -/
def parse (text : String) (path : Path) : Except InputFault KnowledgeIndex :=
  if Text.isBlankText text then .ok (ofFragments path [])
  else
    let records := Csv.records text
    let header := (records.head?.map Csv.Record.trimmed).getD []
    match columns.filter fun column => !header.contains column with
    | [] =>
      ((records.drop 1).mapM (Csv.row columns header)).mapError (.malformedIndex path) |>.map
        fun rows => ofFragments path (rows.filterMap fragment?)
    | missing => .error (.missingColumns path missing columns)

/-- An index that cannot be read is empty. -/
def load (tree : FileTree) (path : Path) : Except InputFault KnowledgeIndex :=
  match tree.read path with
  | .ok text => parse text path
  | .error _ => .ok (ofFragments path [])

end WorkflowBundle.KnowledgeIndex
