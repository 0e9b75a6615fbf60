/-
This file keeps the tables of projects from one resolution to the next.
-/

import WorkflowBundle.Cascade.Merge
import WorkflowBundle.Configuration.Writer

namespace WorkflowBundle.Cascade

open Variable (Table)

/-- Tables are kept for a project root and the name of a workflow. -/
structure CacheKey where
  root : List Path.Component
  workflow : String
deriving DecidableEq

/-- Kept tables are valid for one fingerprint of the configuration. -/
structure CacheEntry where
  fingerprint : String
  tables : ProjectTables

/-- A cache has one entry for a key, and counts how often it could answer and how often not. -/
structure Cache where
  entries : List (CacheKey × CacheEntry) := []
  hits : Nat := 0
  misses : Nat := 0

namespace Cache

/-- A new cache, and one that was cleared, has no entries and counts from zero. -/
def empty : Cache := {}

/-- The tables of a key are found when they were kept for the same fingerprint. -/
def find? (cache : Cache) (key : CacheKey) (fingerprint : String) : Option ProjectTables :=
  ((cache.entries.lookup key).filter fun entry => entry.fingerprint == fingerprint).map
    CacheEntry.tables

/-- Keeping tables replaces the entry of their key. -/
def keep (cache : Cache) (key : CacheKey) (entry : CacheEntry) : Cache :=
  { cache with entries := (key, entry) :: cache.entries.filter fun old => old.1 != key }

/-- The key of a context has the canonical root, or the root as given where it does not exist. -/
def keyOf (tree : FileTree) (context : Context) (workflow : String) : CacheKey where
  root := (tree.canonicalOrSelf context.root).components
  workflow

/-- Tables that are not found are computed and kept. -/
def fetch (tree : FileTree) (context : Context) (workflow : String) (cache : Cache) :
    ProjectTables × Cache :=
  let key := keyOf tree context workflow
  let fingerprint := context.configuration.fingerprint
  match cache.find? key fingerprint with
  | some tables => (tables, { cache with hits := cache.hits + 1 })
  | none =>
    let tables :=
      ProjectTables.compute tree context (tree.canonicalOrSelf context.root) workflow
    (tables, { cache.keep key ⟨fingerprint, tables⟩ with misses := cache.misses + 1 })

def resolveWith (tree : FileTree) (context : Context) (workflow : String) (own : Table)
    (cache : Cache) : Except Violation Table × Cache :=
  let (tables, next) := cache.fetch tree context workflow
  (resolve tables context workflow own, next)

/-- A workflow that is known by its name only has no variables of its own. -/
def resolveNamed (tree : FileTree) (context : Context) (workflow : String) (cache : Cache) :
    Except Violation Table × Cache :=
  cache.resolveWith tree context workflow ∅

/-- A parsed workflow has the variables of its settings. -/
def resolveWorkflow (tree : FileTree) (context : Context) (workflow : Workflow) (cache : Cache) :
    Except Violation Table × Cache :=
  cache.resolveWith tree context workflow.name (.ofList (workflowSource workflow))

end Cache

end WorkflowBundle.Cascade
