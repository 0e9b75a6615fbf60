/-
This file detects the continuous integration platform of a project by its files.
-/

import WorkflowBundle.FileTree.Resolve

namespace WorkflowBundle

/-- A platform is known by the file that configures it. -/
inductive CiPlatform where
  | github
  | gitlab
  | circleci
  | azure
  | jenkins
  | unknown
deriving DecidableEq, Repr

namespace CiPlatform

/-- A platform is written as one word. -/
def name : CiPlatform → String
  | .github => "github"
  | .gitlab => "gitlab"
  | .circleci => "circleci"
  | .azure => "azure"
  | .jenkins => "jenkins"
  | .unknown => "unknown"

/-- A directory has workflow files when some file in it has a YAML extension. -/
def hasWorkflowFiles (tree : FileTree) (directory : Path) : Bool :=
  (tree.filesIn directory).any fun file =>
    file.extension? == some "yml" || file.extension? == some "yaml"

/-- The configuration of a platform is present below a project root. -/
def isPresent (tree : FileTree) (root : Path) : CiPlatform → Bool
  | .github => hasWorkflowFiles tree ((root.join ".github").join "workflows")
  | .gitlab => tree.exists? (root.join ".gitlab-ci.yml")
  | .circleci => tree.exists? ((root.join ".circleci").join "config.yml")
  | .azure => tree.exists? (root.join "azure-pipelines.yml")
  | .jenkins => tree.exists? (root.join "Jenkinsfile")
  | .unknown => true

def all : List CiPlatform := [.github, .gitlab, .circleci, .azure, .jenkins, .unknown]

def detect (tree : FileTree) (root : Path) : CiPlatform :=
  (all.find? (isPresent tree root)).getD .unknown

end CiPlatform

end WorkflowBundle
