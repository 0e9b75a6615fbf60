/-
This file orders the names of step files by their numbers.
-/

import WorkflowBundle.Decimal.Numeral
import WorkflowBundle.Path
import WorkflowBundle.Text.DecimalDigit

namespace WorkflowBundle.StepName

/-- The key of a name is its step number, the letter behind the number, and the name itself. -/
structure Key where
  number : Nat
  letter : String
  name : String
deriving DecidableEq, Repr

/-- Names without a step number of 64 bits share the greatest number. -/
def unnumbered : Nat := Nat.pow 2 64 - 1

/-- The names of steps start with this mark. -/
def mark : List Char := "step-".toList

/-- Digits of ASCII are a step number if it fits 64 bits. -/
def numberOf (digits : List Char) : Nat :=
  match Numeral.natural? 10 digits with
  | some number => if number ≤ unnumbered then number else unnumbered
  | none => unnumbered

/-- The letter behind a number is a lower-case ASCII letter or absent. -/
def letterOf (rest : List Char) : String :=
  String.ofList ((rest.take 1).filter fun character => 'a' ≤ character && character ≤ 'z')

/-- A name has a number when digits of any script follow the mark. -/
def key (name : String) : Key :=
  let digits := (name.toList.drop mark.length).takeWhile Text.isDecimalDigit
  if mark.isPrefixOf name.toList && !digits.isEmpty then
    ⟨numberOf digits, letterOf (name.toList.drop (mark.length + digits.length)), name⟩
  else ⟨unnumbered, "", name⟩

/-- Keys are compared by number, then by letter, then by name. -/
def Key.le (first second : Key) : Bool :=
  if first.number = second.number then
    if first.letter = second.letter then decide (first.name ≤ second.name)
    else decide (first.letter < second.letter)
  else first.number < second.number

/-- A step file has the mark before its name and the Markdown extension behind it. -/
def isStepFile (name : String) : Bool :=
  mark.isPrefixOf name.toList && ".md".toList.isSuffixOf name.toList

def nameOf (path : Path) : String :=
  path.fileName?.getD ""

def sort (paths : List Path) : List Path :=
  paths.mergeSort fun first second => (key (nameOf first)).le (key (nameOf second))

/-- The first step of some paths is the least one among the step files. -/
def first? (paths : List Path) : Option Path :=
  (sort (paths.filter fun path => isStepFile (nameOf path))).head?

end WorkflowBundle.StepName
