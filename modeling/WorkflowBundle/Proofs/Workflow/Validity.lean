/-
This file shows which parsed workflows are valid: those with a name.
-/

import WorkflowBundle.Proofs.Workflow.Parsing
import WorkflowBundle.Workflow.Validate

namespace WorkflowBundle.Workflow

/-- The name that a directory gives to a workflow is blank when its settings name it so, or when
they do not name it and the directory has no other name. -/
inductive Unnamed (settings : Yaml.Mapping) (directory : Path) : Prop where
  | settings {name : String} (given : settings.text? "name" = some name) (written : name ≠ "")
      (blank : Text.isBlankText name = true) : Unnamed settings directory
  | directory (missing : ∀ name, settings.text? "name" = some name → name = "")
      (blank : ∀ name, directory.fileName? = some name → Text.isBlankText name = true) :
      Unnamed settings directory

/-- The name of a workflow is blank if and only if nothing names it. -/
theorem isBlankText_nameOf_iff (settings : Yaml.Mapping) (directory : Path) :
    Text.isBlankText (nameOf settings directory) = true ↔ Unnamed settings directory := by
  have fallback : Text.isBlankText (directory.fileName?.getD "") = true ↔
      ∀ name, directory.fileName? = some name → Text.isBlankText name = true := by
    cases directory.fileName? with
    | none => simp [Text.isBlankText]
    | some name => simp
  -- An empty name in the settings counts as none.
  rcases named : (settings.text? "name").filter (fun name => !name.isEmpty) with _ | name
  · have unnamed : nameOf settings directory = directory.fileName?.getD "" := by
      simp only [nameOf, named]
    rw [unnamed]
    have missing : ∀ name, settings.text? "name" = some name → name = "" := by
      simpa using Option.filter_eq_none_iff.1 named
    constructor
    · intro blank
      exact .directory missing (fallback.1 blank)
    · rintro (⟨given, written, -⟩ | ⟨-, blank⟩)
      · exact absurd (missing _ given) written
      · exact fallback.2 blank
  · have kept : nameOf settings directory = name := by
      simp only [nameOf, named]
    rw [kept]
    obtain ⟨given, written⟩ : settings.text? "name" = some name ∧ name ≠ "" := by
      simpa using Option.filter_eq_some_iff.1 named
    constructor
    · intro blank
      exact .settings given written blank
    · rintro (⟨same, -, blank⟩ | ⟨missing, -⟩)
      · exact Option.some.inj (same.symm.trans given) ▸ blank
      · exact absurd (missing name given) written

/-- A workflow is coherent when its kind and its flag are those of its layout, and its document and
its first steps exist. -/
structure Coherent (tree : FileTree) (workflow : Workflow) : Prop where
  kind : workflow.layout.kind = workflow.kind
  modal : workflow.modal = (workflow.kind == .triModal)
  instructions : tree.exists? workflow.instructionsPath = true
  steps : ∀ mode first, workflow.firstStep? mode = some first → tree.exists? first = true

section

variable {tree : FileTree} {workflow : Workflow}

/-- The name is the only possible problem of a coherent workflow. -/
theorem Coherent.problems_eq (coherent : Coherent tree workflow) :
    workflow.problems tree = workflow.nameProblems := by
  have kind : workflow.kindProblems = [] := by
    rw [kindProblems, ← coherent.modal, coherent.kind]
    simp
  have instructions : workflow.instructionsProblems tree = [] := by
    rw [instructionsProblems, if_pos coherent.instructions]
  have steps : workflow.stepProblems tree = [] := by
    rw [stepProblems, List.filterMap_eq_nil_iff]
    intro mode _
    cases starts : workflow.firstStep? mode with
    | none => rfl
    | some first => exact if_pos (coherent.steps mode first starts)
  rw [problems, kind, instructions, steps, List.append_nil, List.append_nil, List.append_nil]

/-- A coherent workflow is valid if its name is not blank, and is rejected for the name
otherwise. -/
theorem Coherent.validate_eq (coherent : Coherent tree workflow) :
    workflow.validate tree =
      if Text.isBlankText workflow.name then .error (.inconsistent .emptyName) else .ok () := by
  rw [validate, coherent.problems_eq, nameProblems]
  cases Text.isBlankText workflow.name <;> rfl

/-- A parsed workflow is coherent. -/
theorem ParsedFrom.coherent {directory configPath named chosen : Path} {settings : Yaml.Mapping}
    (stages : ParsedFrom tree directory settings configPath named chosen workflow)
    (absolute : directory.isAbsolute = true)
    (headed : HeadedBy tree directory configPath workflow) : Coherent tree workflow := by
  refine ⟨headed.kind.symm, ?_, ?_, ?_⟩
  · rw [headed.modal, headed.kind, Layout.kind]
    cases workflow.layout.isEmpty <;> rfl
  · obtain ⟨names, located⟩ := stages.exists_location
    rw [stages.instructionsPath]
    exact FileTree.exists?_canonicalOrSelf (stages.isAbsolute absolute) located
  · intro mode first starts
    obtain ⟨names, _, located, -⟩ :=
      FileTree.exists_location_of_isFile (stages.isFile_of_firstStep? starts)
    exact FileTree.exists?_iff.2 ⟨names, located⟩

end

/-- A parsed workflow has the layout of its directory and is coherent, so that only a blank name
makes it invalid. Its name is blank if and only if neither its settings nor its directory name it. -/
theorem parsed_workflow_is_valid_iff_named {tree : FileTree} {path : Path} {workflow : Workflow}
    (parsed : parse tree path = .ok workflow) :
    ∃ directory, tree.canonical path = .ok directory ∧
      workflow.layout = Layout.detect tree directory ∧ Coherent tree workflow ∧
      (workflow.validate tree = .ok () ↔ ¬ Unnamed workflow.settings directory) ∧
      (workflow.validate tree = .error (.inconsistent .emptyName) ↔
        Unnamed workflow.settings directory) ∧
      (Text.isBlankText workflow.name = true ↔ Unnamed workflow.settings directory) := by
  obtain ⟨directory, settings, configPath, named, chosen, located, stages, headed⟩ :=
    exists_stages_of_parse parsed
  have absolute : directory.isAbsolute = true := by
    obtain ⟨names, -, rfl⟩ := Outcome.map_eq_ok_iff.1 located
    exact Path.isAbsolute_ofNames names
  have coherent := stages.coherent absolute headed
  have blank : Text.isBlankText workflow.name = true ↔ Unnamed workflow.settings directory := by
    rw [headed.name]
    exact isBlankText_nameOf_iff workflow.settings directory
  refine ⟨directory, located, stages.layout, coherent, ?_, ?_, blank⟩
  · rw [coherent.validate_eq, ← blank]
    cases Text.isBlankText workflow.name <;> simp
  · rw [coherent.validate_eq, ← blank]
    cases Text.isBlankText workflow.name <;> simp

/-- The settings of this workflow name it with a space. -/
def spacedTree : FileTree where
  entries :=
    [(["w"], .directory), (["w", "workflow.yaml"], .file ⟨"name: ' '\n".toUTF8.data⟩),
      (["w", "instructions.md"], .file ⟨"Go.".toUTF8.data⟩)]
  workingDirectory := []

theorem parse_spacedTree :
    ∃ workflow, parse spacedTree ⟨"/w"⟩ = .ok workflow ∧ workflow.name = " " := by
  have named : (parse spacedTree ⟨"/w"⟩).toOption.map Workflow.name = some " " := by
    decide +kernel
  exact Outcome.exists_of_map_toOption named

/-- A workflow named with a space is coherent and rejected for its name. -/
theorem spaced_workflow_is_rejected :
    ∃ workflow, parse spacedTree ⟨"/w"⟩ = .ok workflow ∧ Coherent spacedTree workflow ∧
      workflow.validate spacedTree = .error (.inconsistent .emptyName) := by
  obtain ⟨workflow, parsed, named⟩ := parse_spacedTree
  obtain ⟨_, -, -, coherent, -, rejected, blank⟩ := parsed_workflow_is_valid_iff_named parsed
  refine ⟨workflow, parsed, coherent, rejected.2 (blank.1 ?_)⟩
  rw [named]
  decide

/-- A parsed workflow can be invalid. -/
theorem parsed_workflow_can_be_invalid :
    ¬ ∀ (tree : FileTree) (path : Path) (workflow : Workflow),
      parse tree path = .ok workflow → workflow.validate tree = .ok () := by
  intro valid
  obtain ⟨workflow, parsed, named⟩ := parse_spacedTree
  have accepted := valid spacedTree ⟨"/w"⟩ workflow parsed
  have blank : Text.isBlankText workflow.name = true := by
    rw [named]
    decide
  rw [validate, problems, nameProblems, if_pos blank] at accepted
  nomatch accepted

end WorkflowBundle.Workflow
