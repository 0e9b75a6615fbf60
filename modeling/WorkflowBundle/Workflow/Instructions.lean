/-
This file validates documents of instructions.
-/

import WorkflowBundle.Error.InputFault
import WorkflowBundle.FileTree.Resolve

namespace WorkflowBundle.Instructions

/-- A Markdown document has this extension in letters of either case. -/
def isMarkdown (path : Path) : Bool :=
  path.extension?.any fun ending => ending.toList.map Char.toLower == ['m', 'd']

/-- These declarations may not occur anywhere in a document. -/
def forbiddenNames : List String := ["DOCTYPE", "ENTITY"]

/-- A declaration is found at the offset of its first occurrence. -/
def declarationOffset? (text name : String) : Option Nat :=
  (Text.cut? ("<!" ++ name).toList text.toList).map fun (before, _) => Text.byteSize before

/-- A forbidden declaration is a fault at its location. -/
def declarationFault? (text : String) (path : Path) (name : String) : Option InputFault :=
  (declarationOffset? text name).map fun offset =>
    .forbiddenDeclaration path name (.ofOffset text offset)

/-- A document is valid when it is Markdown, or when it is well-formed XML without forbidden
declarations. -/
def validate (text : String) (path : Path) : Except InputFault Unit :=
  if isMarkdown path then .ok ()
  else
    match forbiddenNames.findSome? (declarationFault? text path) with
    | some fault => .error fault
    | none =>
      (Xml.checkWellFormed text).mapError fun (fault, offset) =>
        .malformedInstructions path fault (.ofOffset text offset)

/-- A document is read as it is, and must be valid. -/
def load (tree : FileTree) (path : Path) : Except InputFault String := do
  let text ← (tree.read path).mapError (.unreadableInstructions path)
  validate text path
  return text

end WorkflowBundle.Instructions
