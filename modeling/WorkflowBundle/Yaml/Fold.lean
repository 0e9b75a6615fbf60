/-
This file folds the white space between the words of a scalar.
-/

import WorkflowBundle.Yaml.Character

namespace WorkflowBundle.Yaml

/-- White space inside a scalar is blanks on one line, or a first break and further breaks. -/
structure Fold where
  broken : Bool := false
  blanks : List Char := []
  firstBreak : List Char := []
  moreBreaks : List Char := []

namespace Fold

def empty : Fold := {}

/-- Blanks count only while no break was met. -/
def addBlank (fold : Fold) (character : Char) : Fold :=
  if fold.broken then fold else { fold with blanks := fold.blanks ++ [character] }

/-- A first break drops the blanks before it. -/
def addBreak (fold : Fold) (character : Char) : Fold :=
  if fold.broken then { fold with moreBreaks := fold.moreBreaks ++ [normalBreak character] }
  else { broken := true, firstBreak := [normalBreak character] }

/-- An escaped break joins the lines around it. -/
def escapedBreak : Fold := { broken := true }

/-- White space stands before the next word when anything was met. -/
def isStarted (fold : Fold) : Bool :=
  fold.broken || !fold.blanks.isEmpty

/-- A single line break becomes a space, and of several the first one is dropped. -/
def joined (fold : Fold) : List Char :=
  if fold.broken then
    if fold.firstBreak == ['\n'] then
      if fold.moreBreaks.isEmpty then [' '] else fold.moreBreaks
    else fold.firstBreak ++ fold.moreBreaks
  else fold.blanks

end Fold

end WorkflowBundle.Yaml
