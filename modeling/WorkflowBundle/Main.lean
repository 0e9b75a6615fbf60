/-
This file is the program that compiles a workflow directory from the command line.
-/

import Std.Time.Zoned
import WorkflowBundle.CommandLine.Date
import WorkflowBundle.CommandLine.Run
import WorkflowBundle.CommandLine.Snapshot

namespace WorkflowBundle.CommandLine

/-- The files of a request are its snapshot and the template that is found by means of it. -/
def requestedFiles (workingDirectory : List String) (date : String) (options : Options) :
    IO FileTree := do
  let snapshot ← Snapshot.take workingDirectory options
  let template := templateOf snapshot.tree date options
  return (← snapshot.addPaths template.toList).tree

end WorkflowBundle.CommandLine

open WorkflowBundle

/-- The program shows its output and its messages, and ends with the exit code of the run. -/
def main (arguments : List String) : IO UInt32 := do
  let workingDirectory := CommandLine.Snapshot.namesOf (← IO.FS.realPath ".").toString
  let today ← Std.Time.PlainDate.now
  let date :=
    CommandLine.dateText today.year.toInt.toNat today.month.toNat today.day.toNat
  let tree ← match CommandLine.parse arguments with
    | .ok (.compile options) => CommandLine.requestedFiles workingDirectory date options
    | _ => pure FileTree.empty
  let outcome := CommandLine.run tree date arguments
  IO.print outcome.output
  IO.eprint outcome.messages
  return outcome.exitCode
