/-
This file estimates the size of a text in tokens and cuts a text to a budget of them.
-/

import WorkflowBundle.Text.Blank

namespace WorkflowBundle.Bundle

def charactersPerToken : Nat := 4

/-- The estimate counts whole tokens. -/
def estimateTokens (text : String) : Nat :=
  text.length / charactersPerToken

def truncationMark : String := "<!-- truncated: exceeded token budget -->"

/-- A cut falls before the last line feed that does not stand first, if there is one. -/
def cutAtLine (head : List Char) : List Char :=
  match (head.reverse.dropWhile (· != '\n')).drop 1 with
  | [] => head
  | before => before.reverse

/-- The kept part of a text fits the budget and has no blank end. -/
def keptPart (text : String) (budget : Nat) : List Char :=
  Text.trimEnd (cutAtLine (text.toList.take (budget * charactersPerToken)))

/-- A text within the budget stays as it is, and of any other the kept part is followed by a mark
on a line of its own. -/
def truncate (text : String) (budget : Nat) : String :=
  if estimateTokens text ≤ budget then text
  else
    match keptPart text budget with
    | [] => truncationMark
    | kept => String.ofList kept ++ "\n" ++ truncationMark

end WorkflowBundle.Bundle
