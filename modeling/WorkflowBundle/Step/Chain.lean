/-
This file follows the references from step to step and joins the steps of a chain.
-/

import WorkflowBundle.Project.KnowledgeIndex
import WorkflowBundle.Step.Basic
import WorkflowBundle.Variable.Expand

namespace WorkflowBundle.Step

def chainLimit : Nat := 20

/-- A chain goes on from a path after the paths that were passed. No path may come twice, and no
step may come when none is left. -/
def chainFrom (tree : FileTree) : Nat → List Path → Path → Except Violation (List Step)
  | left, passed, path =>
    if passed.contains path then .error (.repeatedStep path passed.length)
    else
      match left with
      | 0 => .error (.longChain path chainLimit)
      | left + 1 => do
        let step ← load tree path
        match step.nextPath? tree with
        | none => return [step]
        | some next => return step :: (← chainFrom tree left (passed ++ [path]) next)

/-- The chain of a first step that exists. -/
def chain (tree : FileTree) (first : Path) : Except Violation (List Step) :=
  match tree.canonical first with
  | .ok path => chainFrom tree chainLimit [] path
  | .error _ => .error (.missingFirstStep first)

def separator : String := "\n\n"

/-- The section of a step is its body behind a comment with its name. -/
def sectionText (step : Step) : String :=
  s!"<!-- STEP: {step.displayName} -->\n" ++ String.ofList (Text.trimEnd step.body.toList)

def concatenate (steps : List Step) : String :=
  Text.join separator (steps.map sectionText)

def knowledgeMark : String := "<!-- KNOWLEDGE BASE -->"

/-- A knowledge base that is not blank is appended to a text. -/
def appendKnowledge (text : String) (knowledge : Option String) : String :=
  match knowledge.filter fun content => !Text.isBlankText content with
  | some content => text ++ separator ++ knowledgeMark ++ "\n" ++ content
  | none => text

/-- A reference to an index is relative to the project where it lies in it, and counts only when all
of its placeholders are known. -/
def indexReference? (tree : FileTree) (root : Path) (bindings : Variable.Table)
    (written : String) : Option String :=
  let reference := Variable.substitute bindings written
  if Variable.hasPlaceholder reference then none
  else if !(Path.mk reference).isAbsolute then some reference
  else
    match ((Path.mk reference).relativeTo? root).or
        ((Path.mk reference).relativeTo? (tree.canonicalOrSelf root)) with
    | some relative => some relative.text
    | none => some reference

/-- The index of a step is located in the project. -/
def indexPath? (tree : FileTree) (root : Path) (bindings : Variable.Table) (step : Step) :
    Option Path := do
  let written ← step.knowledgeIndex
  let reference ← indexReference? tree root bindings written
  Project.indexPath? tree root (some reference)

def distinctPaths (paths : List Path) : List Path :=
  paths.foldl (fun kept path => if kept.any (·.sameAs path) then kept else kept ++ [path]) []

/-- A compiled chain has the text of its steps with the variables inserted, and the indexes that the
steps name. -/
def compileChain (tree : FileTree) (root : Path) (bindings : Variable.Table)
    (knowledge : Option String) (first : Path) : Except Violation (String × List Path) := do
  let steps ← chain tree first
  let text := Variable.substitute bindings (concatenate steps)
  let indexes := distinctPaths (steps.filterMap (indexPath? tree root bindings))
  return (appendKnowledge text knowledge, indexes)

end WorkflowBundle.Step
