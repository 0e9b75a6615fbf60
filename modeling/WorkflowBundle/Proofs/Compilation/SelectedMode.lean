/-
This file says in which mode a valid workflow is compiled: the one that is asked for, or else the
first one that has steps.
-/

import WorkflowBundle.Proofs.Compilation.ShownValues
import WorkflowBundle.Proofs.Workflow.ModeSelection

namespace WorkflowBundle

open Variable (Table)

namespace Workflow

variable {tree : FileTree} {workflow : Workflow} {bindings : Table}

/-- A compiled workflow with a mode has the instructions of the mode's steps. -/
theorem CompiledFrom.instructions_of_firstStep? {context : Context} {resolved : Table}
    {mode : Option Mode} {document : String} {knowledge : Option String} {compiled : Compiled}
    (stages : CompiledFrom tree context workflow resolved mode document knowledge compiled)
    {first : Path} (starts : mode.bind workflow.firstStep? = some first) :
    ∃ steps, Step.chain tree first = .ok steps ∧ compiled.instructions =
      Step.appendKnowledge
        (Variable.substitute compiled.bindings (Step.concatenate steps)) knowledge := by
  have loaded := stages.loaded
  rw [Workflow.document, starts] at loaded
  obtain ⟨steps, linked, rfl⟩ := Outcome.map_eq_ok_iff.1 loaded
  exact ⟨steps, linked, stages.instructions⟩

/-- A valid workflow has no mode if and only if it is a single document. With steps it has the mode
that the variable asks for, and no other, and a text that asks for none is an error unless it is
blank. Otherwise it has the first mode with steps. The first step of its mode exists, and where it
is compiled the instructions are those of the steps from there on. -/
theorem mode_is_asked_for_or_first (valid : workflow.validate tree = .ok ()) (bindings : Table) :
    (workflow.resolveMode bindings = .ok none ↔ workflow.kind = .single) ∧
    (workflow.kind = .triModal → ∀ text, bindings.text? modeVariable = some text →
      Text.isBlankText text = false →
        (∀ mode, workflow.resolveMode bindings = .ok (some mode) ↔ workflow.AsksFor text mode) ∧
        ((∀ mode, ¬ workflow.AsksFor text mode) →
          ∃ violation, workflow.resolveMode bindings = .error violation ∧
            violation.kind = .invalidMode)) ∧
    (workflow.kind = .triModal →
      (∀ text, bindings.text? modeVariable = some text → Text.isBlankText text = true) →
        workflow.resolveMode bindings = .ok (some
          (if .create ∈ workflow.layout.modes then .create
            else if .validate ∈ workflow.layout.modes then .validate else .edit))) ∧
    (∀ mode, workflow.resolveMode bindings = .ok (some mode) →
      ∃ first, workflow.firstStep? mode = some first ∧ tree.exists? first = true) ∧
    (workflow.kind = .triModal → ∀ context directory cache compiled,
      obtainValid tree context directory = .ok workflow →
      (compile tree context directory cache).1 = .ok compiled →
        ∃ resolved mode first steps knowledge,
          (cache.resolveWorkflow tree context workflow).1 = .ok resolved ∧
          workflow.resolveMode resolved = .ok (some mode) ∧
          workflow.firstStep? mode = some first ∧ Step.chain tree first = .ok steps ∧
          compiled.instructions = Step.appendKnowledge
            (Variable.substitute compiled.bindings (Step.concatenate steps)) knowledge) := by
  have coherent := coherent_of_validate valid
  have modal (stepped : workflow.kind = .triModal) : workflow.modal = true :=
    coherent.modal_iff.2 stepped
  refine ⟨⟨?_, ?_⟩, ?_, ?_, ?_, ?_⟩
  · intro none
    cases kind : workflow.kind with
    | single => rfl
    | triModal =>
        obtain ⟨mode, -, same⟩ := coherent.exists_mode (modal kind) none
        nomatch same
  · intro single
    apply resolveMode_of_single
    rw [coherent.modal, single]
    rfl
  · intro stepped text given written
    exact ⟨resolveMode_eq_some_iff given written (modal stepped),
      exists_violation_of_resolveMode given written (modal stepped)⟩
  · intro stepped blank
    rw [resolveMode_of_blank (modal stepped) blank,
      head?_modes (coherent.modes_ne_nil (modal stepped))]
    split <;> rfl
  · intro mode resolved
    have stepped : workflow.modal = true := by
      rw [← Bool.not_eq_false]
      intro single
      nomatch (resolveMode_of_single single).symm.trans resolved
    obtain ⟨_, offered, same⟩ := coherent.exists_mode stepped resolved
    obtain rfl := Option.some.inj same
    obtain ⟨first, starts⟩ := Option.isSome_iff_exists.1 (Layout.mem_modes_iff.1 offered)
    exact ⟨first, starts, coherent.steps _ first starts⟩
  · intro stepped context directory cache compiled obtained success
    obtain ⟨_, resolved, again, resolution, selected, document, knowledge, stages⟩ :=
      compile_eq_ok success
    obtain rfl := Except.ok.inj (obtained.symm.trans again)
    obtain ⟨mode, offered, rfl⟩ := coherent.exists_mode (modal stepped) stages.selected
    obtain ⟨first, starts⟩ := Option.isSome_iff_exists.1 (Layout.mem_modes_iff.1 offered)
    obtain ⟨steps, linked, written⟩ := stages.instructions_of_firstStep? starts
    exact ⟨resolved, mode, first, steps, knowledge, resolution, stages.selected, starts, linked,
      written⟩

/-- This tree has a step that validates and one that edits. -/
def checkedTree : FileTree where
  entries := [(["check.md"], .file ⟨#[]⟩), (["change.md"], .file ⟨#[]⟩)]
  workingDirectory := []

/-- This workflow starts with one of the two steps. -/
def checkedWorkflow : Workflow where
  name := "demo"
  configPath := ⟨"/workflow.yaml"⟩
  instructionsPath := ⟨"/check.md"⟩
  template := none
  validation := none
  settings := []
  instructions := ""
  kind := .triModal
  modal := true
  layout := { validate := some ⟨⟨"/"⟩, ⟨"/check.md"⟩⟩, edit := some ⟨⟨"/"⟩, ⟨"/change.md"⟩⟩ }

/-- The workflow validates by default, edits when it is asked to, and cannot create. -/
theorem checked_workflow_validates_by_default :
    checkedWorkflow.validate checkedTree = .ok () ∧
      checkedWorkflow.resolveMode ∅ = .ok (some .validate) ∧
      checkedWorkflow.resolveMode (.ofList [(modeVariable, .ofText " Edit ")]) =
        .ok (some .edit) ∧
      ∃ violation,
        checkedWorkflow.resolveMode (.ofList [(modeVariable, .ofText "create")]) =
          .error violation ∧ violation.kind = .invalidMode := by
  have valid : checkedWorkflow.validate checkedTree = .ok () := by decide
  obtain ⟨-, -, default, -⟩ := mode_is_asked_for_or_first valid ∅
  obtain ⟨-, edits, -⟩ :=
    mode_is_asked_for_or_first valid (.ofList [(modeVariable, .ofText " Edit ")])
  obtain ⟨-, creates, -⟩ :=
    mode_is_asked_for_or_first valid (.ofList [(modeVariable, .ofText "create")])
  refine ⟨valid, default rfl nofun, ?_, ?_⟩
  · refine ((edits rfl " Edit " (by decide) (by decide)).1 .edit).2 ⟨?_, by decide⟩
    decide
  · refine (creates rfl "create" (by decide) (by decide)).2 fun mode asked => ?_
    have named : Mode.parse "create" = .ok .create := by decide
    have missing : Mode.create ∉ checkedWorkflow.layout.modes := by decide
    obtain rfl := Except.ok.inj (named.symm.trans asked.1)
    exact missing asked.2

end Workflow

end WorkflowBundle
