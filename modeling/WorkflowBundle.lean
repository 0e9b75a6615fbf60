import WorkflowBundle.Json.Reader
import WorkflowBundle.Knowledge.Record
import WorkflowBundle.Main
import WorkflowBundle.Step.Record
import WorkflowBundle.Workflow.Record
import WorkflowBundle.Proofs.Cascade.Precedence
import WorkflowBundle.Proofs.Outcome
import WorkflowBundle.Proofs.Variable.Expansion
import WorkflowBundle.Proofs.Cascade.Transparency
import WorkflowBundle.Proofs.Variable.Reference
import WorkflowBundle.Proofs.Variable.Substitution
import WorkflowBundle.Proofs.Compilation.ShownValues
import WorkflowBundle.Proofs.Xml.Document
import WorkflowBundle.Proofs.Xml.Acceptance
import WorkflowBundle.Proofs.Xml.Encoding
import WorkflowBundle.Proofs.Bundle.Element
import WorkflowBundle.Proofs.Bundle.RoundTrip
import WorkflowBundle.Proofs.Step.Walk
import WorkflowBundle.Proofs.Compilation.RunVariables
import WorkflowBundle.Proofs.Xml.Declaration
import WorkflowBundle.Proofs.Workflow.DeclarationGuard
import WorkflowBundle.Proofs.Path.Names
import WorkflowBundle.Proofs.FileTree.Location
import WorkflowBundle.Proofs.FileTree.Containment
import WorkflowBundle.Proofs.Workflow.Containment
import WorkflowBundle.Proofs.Variable.Walk
import WorkflowBundle.Proofs.Variable.Solution
import WorkflowBundle.Proofs.Workflow.Validity
import WorkflowBundle.Proofs.Compilation.DirectoryVariable
import WorkflowBundle.Proofs.Variable.Placeholder
import WorkflowBundle.Proofs.Variable.Rendering
import WorkflowBundle.Proofs.Variable.Scan
import WorkflowBundle.Proofs.Variable.Classification
import WorkflowBundle.Proofs.Variable.Finality
import WorkflowBundle.Proofs.Yaml.Mapping
import WorkflowBundle.Proofs.Cascade.SkippedReference
import WorkflowBundle.Proofs.Cascade.ReviewScope
import WorkflowBundle.Proofs.Cascade.Accounting
import WorkflowBundle.Proofs.Compilation.SelectedMode
import WorkflowBundle.Proofs.Text.Bytes
import WorkflowBundle.Proofs.Text.Location
import WorkflowBundle.Proofs.Workflow.FaultLocation
import WorkflowBundle.Proofs.Text.Search
import WorkflowBundle.Proofs.Workflow.FrontMatter
import WorkflowBundle.Proofs.Step.FrontMatter
import WorkflowBundle.Proofs.Workflow.Directory
import WorkflowBundle.Proofs.Knowledge.Selection
import WorkflowBundle.Proofs.Firsts
import WorkflowBundle.Proofs.Text.Pieces
import WorkflowBundle.Proofs.Csv
import WorkflowBundle.Proofs.Knowledge.Row
import WorkflowBundle.Proofs.Knowledge.Table
import WorkflowBundle.Proofs.Path.Join
import WorkflowBundle.Proofs.FileTree.Join
import WorkflowBundle.Proofs.Project.KnowledgeIndex
import WorkflowBundle.Proofs.Knowledge.Containment
import WorkflowBundle.Proofs.Path.Relative
import WorkflowBundle.Proofs.Step.Indexes
import WorkflowBundle.Proofs.Variable.Division
import WorkflowBundle.Proofs.Step.Sections
import WorkflowBundle.Proofs.Path.Resolution
import WorkflowBundle.Proofs.Project.Subdirectory
import WorkflowBundle.Proofs.Workflow.StepOrder
import WorkflowBundle.Proofs.Workflow.StepNumber
import WorkflowBundle.Proofs.FileTree.Listing
import WorkflowBundle.Proofs.Workflow.FirstStep
import WorkflowBundle.Proofs.Text.Trimming
import WorkflowBundle.Proofs.Bundle.Budget
import WorkflowBundle.Proofs.Text.Replacement
import WorkflowBundle.Proofs.Variable.Spelling
import WorkflowBundle.Proofs.Cascade.OutputFolder
import WorkflowBundle.Proofs.Yaml.Representation
import WorkflowBundle.Proofs.Configuration.Reading
import WorkflowBundle.Proofs.Configuration.RoundTrip
import WorkflowBundle.Proofs.Bundle.Label
import WorkflowBundle.Proofs.CommandLine.Arguments
import WorkflowBundle.Proofs.Variable.Segmentation
import WorkflowBundle.Proofs.Decimal.Rounding
import WorkflowBundle.Proofs.Decimal.Shortest
import WorkflowBundle.Proofs.Variable.Integer
