/-
This file holds the texts that present the program.
-/

import WorkflowBundle.Text.Search

namespace WorkflowBundle.CommandLine

def versionText : String := "BundleForge 0.1.0\n"

/-- The usage lists the arguments, the options and some examples. -/
def usageLines : List String :=
  ["Usage: bundleforge [OPTIONS] <WORKFLOW_DIR>",
    "",
    "Arguments:",
    "  <WORKFLOW_DIR>          Workflow directory to compile",
    "",
    "Options:",
    "  --project-root PATH     Project root (default: current directory)",
    "  --output-folder PATH    Folder for generated artifacts",
    "  --config PATH           Configuration file (default: <project-root>/bundleforge.yaml)",
    "  --mode MODE             Tri-modal mode: c|create, v|validate, e|edit",
    "  --var KEY=VALUE         Runtime variable (repeatable)",
    "  --context-file PATH     Include a file in the bundle (repeatable)",
    "  --links-only            List context files without their content",
    "  --check                 Parse and validate only",
    "  --json                  Print the compiled workflow as JSON",
    "  --verbose               Enable debug logging",
    "  --help                  Show this help message",
    "  --version               Show version information",
    "",
    "Examples:",
    "  bundleforge workflows/atdd",
    "  bundleforge workflows/atdd --mode v --var story_id=1.2",
    "  bundleforge workflows/atdd --project-root /work/app --json"]

/-- Every line of a text is ended by a line feed. -/
def unlines (lines : List String) : String :=
  String.join (lines.map (· ++ "\n"))

def usage : String := unlines usageLines

end WorkflowBundle.CommandLine
