/-
This file fixes which fragments of knowledge a workflow selects and which ones are left out.
-/

import WorkflowBundle.Dictionary
import WorkflowBundle.Variable.Value

namespace WorkflowBundle.Knowledge

/-- Some workflows have this mark before their kind. -/
def kindMark : String := "testarch-"

/-- The kind of a workflow is its name without the mark. -/
def kindOf (workflow : String) : String :=
  if kindMark.toList.isPrefixOf workflow.toList then
    String.ofList (workflow.toList.drop kindMark.length)
  else workflow

/-- These kinds select these fragments unless the configuration says otherwise. -/
def defaultSelectors : List (String × List String) :=
  [("atdd", ["fixture-architecture", "network-first", "test-levels", "component-tdd"]),
    ("test-review", ["test-quality", "risk-governance", "test-healing-patterns"]),
    ("trace", ["risk-governance", "probability-impact", "test-priorities"]),
    ("framework", ["fixture-architecture", "playwright-config", "overview"]),
    ("nfr-assess", ["nfr-criteria", "probability-impact", "risk-governance"]),
    ("test-design", ["risk-governance", "test-priorities", "test-levels"]),
    ("automate", ["data-factories", "network-first", "fixture-architecture"]),
    ("ci", ["ci-burn-in", "selective-testing", "burn-in"])]

/-- Configured selectors of a workflow or of its kind take the place of the default ones. -/
def selectorsFor (configured : Dictionary (List String)) (workflow : String) : List String :=
  match (configured.find? workflow).or (configured.find? (kindOf workflow)) with
  | some selectors => selectors
  | none => (defaultSelectors.lookup (kindOf workflow)).getD []

/-- Two groups of fragments can be switched off. -/
structure Flags where
  playwrightUtils : Bool := true
  mcpEnhancements : Bool := true
deriving DecidableEq

namespace Flags

/-- A flag is a truth value, or a text that is not the word for false in letters of either case, and
counts as set otherwise. -/
def isSet (bindings : Variable.Table) (name : String) : Bool :=
  match bindings.find? name with
  | some (.boolean value) => value
  | some (.text text) | some (.unresolved text) =>
    text.toList.map Char.toLower != "false".toList
  | _ => true

def ofVariables (bindings : Variable.Table) : Flags :=
  ⟨isSet bindings "use_playwright_utils", isSet bindings "use_mcp_enhancements"⟩

/-- Each group that is switched off has a tag to leave out. -/
def excludedTags (flags : Flags) : List String :=
  (if flags.playwrightUtils then [] else ["playwright-utils"]) ++
    (if flags.mcpEnhancements then [] else ["mcp"])

end Flags

end WorkflowBundle.Knowledge
