/-
This file merges the sources of variables by their precedence.
-/

import WorkflowBundle.Cascade.Sources
import WorkflowBundle.Variable.Expand

namespace WorkflowBundle.Cascade

open Variable (Table)

/-- Some sources depend on the files and the configuration of a project and on the name of a
workflow only. -/
structure ProjectTables where
  paths : Table
  tests : Table
  project : Table
  shared : Table
  workflow : Table
deriving DecidableEq

/-- The tables of a project are computed from its files. -/
def ProjectTables.compute (tree : FileTree) (context : Context) (root : Path) (workflow : String) :
    ProjectTables where
  paths := .ofList (pathSource context.configuration.paths)
  tests := .ofList ((context.configuration.tests.map testSource).getD [])
  project := .ofList (projectSource tree context root)
  shared := .ofList (mappingSource context.configuration.sharedDefaults)
  workflow := .ofList <|
    platformSource tree context workflow ++ overrideSource context.configuration workflow

/-- The layers of a cascade are listed from the lowest precedence to the highest. -/
def layers (tables : ProjectTables) (context : Context) (workflow : String)
    (own : Table) : List Table :=
  [tables.paths, tables.tests, tables.project, .ofList (runSource context), tables.shared, own,
    tables.workflow, .ofList (reviewSource context workflow), context.bindings]

/-- Each layer is set over the layers below it. -/
def merge (layers : List Table) : Table :=
  layers.foldl Dictionary.overlay ∅

/-- The variables of a workflow are those of the merged layers, expanded against each other. -/
def resolve (tables : ProjectTables) (context : Context) (workflow : String) (own : Table) :
    Except Violation Table :=
  Variable.expand (merge (layers tables context workflow own))

end WorkflowBundle.Cascade
