/-
This file compares the texts that a compilation inserts with the values its bundle shows.
-/

import WorkflowBundle.Compilation.Compiled
import WorkflowBundle.Proofs.Variable.Substitution

namespace WorkflowBundle

open Variable (Table Value)

namespace Workflow

/-- The document of a workflow joins the steps of the mode, or is the one that was parsed. -/
def document (tree : FileTree) (workflow : Workflow) (mode : Option Mode) :
    Except Violation String :=
  match mode.bind workflow.firstStep? with
  | some first => (Step.chain tree first).map Step.concatenate
  | none => .ok workflow.instructions

/-- The template of a workflow is read from its path, and is empty where it cannot be read. -/
def templateText (tree : FileTree) (workflow : Workflow) (bindings : Table) : String :=
  ((workflow.templatePath? bindings).bind fun path => (tree.read path).toOption).getD ""

theorem outputTemplate_eq (tree : FileTree) (workflow : Workflow) (bindings : Table) :
    workflow.outputTemplate tree bindings =
      Variable.substitute bindings (workflow.templateText tree bindings) := by
  rw [outputTemplate, templateText]
  split
  · rename_i content read
    rw [read, Option.getD_some]
  · rename_i missing
    rw [missing]
    rfl

/-- Instructions are the document of the workflow with the variables inserted, and the knowledge. -/
theorem compileInstructions_eq_ok {tree : FileTree} {context : Context} {workflow : Workflow}
    {mode : Option Mode} {bindings : Table} {knowledge : Option String} {instructions : String}
    {indexes : List Path}
    (success : workflow.compileInstructions tree context mode bindings knowledge =
      .ok (instructions, indexes)) :
    ∃ document, workflow.document tree mode = .ok document ∧
      instructions = Step.appendKnowledge (Variable.substitute bindings document) knowledge := by
  rw [compileInstructions] at success
  rw [document]
  cases found : mode.bind workflow.firstStep? with
  | some first =>
      rw [found] at success
      obtain ⟨steps, linked, joined⟩ := Outcome.bind_eq_ok_iff.1 success
      obtain ⟨same, -⟩ := Prod.mk.inj (Outcome.pure_eq_ok_iff.1 joined)
      exact ⟨_, Outcome.map_eq_ok_iff.2 ⟨steps, linked, rfl⟩, same.symm⟩
  | none =>
      rw [found] at success
      obtain ⟨same, -⟩ := Prod.mk.inj (Except.ok.inj success)
      exact ⟨workflow.instructions, rfl, same.symm⟩

theorem typed_withSelection {bindings : Table} (typed : Variable.Typed bindings)
    (mode : Option Mode) (knowledge : Option String) :
    Variable.Typed (withSelection bindings mode knowledge) := by
  have withMode : Variable.Typed (withSelection bindings mode none) := by
    cases mode with
    | none => exact typed
    | some selected => exact typed.insert _ _
  cases knowledge with
  | none => exact withMode
  | some content => exact withMode.insert _ _

/-- A compilation selects a mode and knowledge, binds both, and inserts all variables into the
document and the template of the workflow. The bundle has the same texts and variables. -/
structure CompiledFrom (tree : FileTree) (context : Context) (workflow : Workflow)
    (resolved : Table) (mode : Option Mode) (document : String) (knowledge : Option String)
    (compiled : Compiled) : Prop where
  selected : workflow.resolveMode resolved = .ok mode
  loaded : workflow.document tree mode = .ok document
  known : workflow.knowledge? tree context (withSelection resolved mode none) = knowledge
  bindings : compiled.bindings = withSelection resolved mode knowledge
  instructions : compiled.instructions =
    Step.appendKnowledge (Variable.substitute compiled.bindings document) knowledge
  outputTemplate : compiled.outputTemplate = Variable.substitute compiled.bindings
    (workflow.templateText tree compiled.bindings)
  bundle : ∃ bundle : Bundle, compiled.bundle = bundle.write tree context.root ∧
    bundle.bindings = compiled.bindings ∧ bundle.instructions = compiled.instructions ∧
    bundle.outputTemplate = compiled.outputTemplate

/-- A compilation that succeeds went through all of its stages. -/
theorem compileWith_eq_ok {tree : FileTree} {context : Context} {workflow : Workflow}
    {resolved : Table} {compiled : Compiled}
    (success : compileWith tree context workflow resolved = .ok compiled) :
    ∃ mode document knowledge,
      CompiledFrom tree context workflow resolved mode document knowledge compiled := by
  rw [compileWith] at success
  obtain ⟨-, -, success⟩ := Outcome.bind_eq_ok_iff.1 success
  obtain ⟨mode, selected, success⟩ := Outcome.bind_eq_ok_iff.1 success
  obtain ⟨⟨instructions, indexes⟩, inserted, success⟩ := Outcome.bind_eq_ok_iff.1 success
  obtain rfl := Outcome.pure_eq_ok_iff.1 success
  obtain ⟨document, loaded, written⟩ := compileInstructions_eq_ok inserted
  refine ⟨mode, document, _, selected, loaded, rfl, rfl, written, ?_, _, rfl, rfl, rfl, rfl⟩
  exact outputTemplate_eq tree workflow _

/-- A workflow that is compiled was valid, its variables were resolved, and it went through all
stages. -/
theorem compile_eq_ok {tree : FileTree} {context : Context} {directory : Path}
    {cache : Cascade.Cache} {compiled : Compiled}
    (success : (compile tree context directory cache).1 = .ok compiled) :
    ∃ workflow resolved, obtainValid tree context directory = .ok workflow ∧
      (cache.resolveWorkflow tree context workflow).1 = .ok resolved ∧
      ∃ mode document knowledge,
        CompiledFrom tree context workflow resolved mode document knowledge compiled := by
  rw [compile] at success
  split at success
  · nomatch success
  · rename_i workflow obtained
    refine ⟨workflow, ?_⟩
    rcases resolution : cache.resolveWorkflow tree context workflow with ⟨outcome, next⟩
    rw [resolution] at success
    cases outcome with
    | error violation => nomatch success
    | ok resolved =>
        cases finish : compileWith tree context workflow resolved with
        | error violation =>
            simp [Except.bind, Except.mapError, finish] at success
        | ok result =>
            simp only [Except.bind, Except.mapError, finish, Except.ok.injEq] at success
            subst success
            exact ⟨resolved, obtained, rfl, compileWith_eq_ok finish⟩

/-- Resolved variables are typed. -/
theorem typed_resolveWorkflow {tree : FileTree} {context : Context} {workflow : Workflow}
    {cache : Cascade.Cache} {resolved : Table}
    (success : (cache.resolveWorkflow tree context workflow).1 = .ok resolved) :
    Variable.Typed resolved :=
  Variable.typed_of_expand success

/-- In the document and in the template of a compiled workflow every reference is replaced by the
text that is used for its name. This is the text that the bundle shows for the variable if and only
if the surrounding text cannot be expanded or the value is not changed by a further expansion, as it
is when the value refers to no variable of the bundle. -/
theorem reference_gets_shown_value_iff {tree : FileTree} {context : Context} {directory : Path}
    {cache : Cascade.Cache} {compiled : Compiled}
    (success : (compile tree context directory cache).1 = .ok compiled) :
    ∃ workflow resolved mode document knowledge,
      obtainValid tree context directory = .ok workflow ∧
      (cache.resolveWorkflow tree context workflow).1 = .ok resolved ∧
      CompiledFrom tree context workflow resolved mode document knowledge compiled ∧
      compiled.instructions = Step.appendKnowledge
        (Variable.fill (Variable.used? compiled.bindings document) document) knowledge ∧
      (let template := workflow.templateText tree compiled.bindings
       compiled.outputTemplate =
        Variable.fill (Variable.used? compiled.bindings template) template) ∧
      ∀ name value, compiled.bindings.find? name = some value →
        (∀ text, Variable.used? compiled.bindings text name = some value.render ↔
          (∃ violation, Variable.expandText compiled.bindings text = .error violation) ∨
            Variable.expandValue compiled.bindings name value = .ok value) ∧
        ((∀ raw, value = .unresolved raw → ∀ found, .reference found ∈ Variable.segments raw →
            compiled.bindings.find? found.name = none) →
          Variable.expandValue compiled.bindings name value = .ok value) := by
  obtain ⟨workflow, resolved, obtained, resolution, mode, document, knowledge, stages⟩ :=
    compile_eq_ok success
  have typed : Variable.Typed compiled.bindings := by
    rw [stages.bindings]
    exact typed_withSelection (typed_resolveWorkflow resolution) mode knowledge
  refine ⟨workflow, resolved, mode, document, knowledge, obtained, resolution, stages, ?_, ?_, ?_⟩
  · rw [stages.instructions, Variable.substitute_eq_fill]
  · rw [stages.outputTemplate]
    exact Variable.substitute_eq_fill _ _
  · intro name value bound
    exact ⟨fun text => Variable.used?_eq_render_iff typed text bound,
      Variable.expandValue_of_unknown typed bound⟩

/-- A workflow without selectors has no knowledge. -/
theorem knowledge?_of_unselected {tree : FileTree} {context : Context} {workflow : Workflow}
    {bindings : Table}
    (unselected : Knowledge.selectorsFor context.configuration.knowledge.selectors workflow.name =
      []) : workflow.knowledge? tree context bindings = none := by
  simp only [knowledge?, unselected]

def steppedTree : FileTree where
  entries := [(["step.md"], .file ⟨"{x}".toUTF8.data⟩)]
  workingDirectory := []

/-- This workflow starts with the step. -/
def steppedWorkflow : Workflow where
  name := "demo"
  configPath := ⟨"/workflow.yaml"⟩
  instructionsPath := ⟨"/step.md"⟩
  template := none
  validation := none
  settings := []
  instructions := ""
  kind := .triModal
  modal := true
  layout := { create := some ⟨⟨"/"⟩, ⟨"/step.md"⟩⟩ }

/-- The workflow is compiled with a variable that mentions the mode. -/
def steppedContext : Context :=
  { Context.new ⟨"/"⟩ "2024-01-01" with
    bindings := .ofList [("x", .ofText "{workflow_mode}")]
    workflow := some steppedWorkflow }

/-- The bundle shows the variable as written, and its instructions have the mode. -/
theorem compile_stepped :
    ∃ compiled, (compile steppedTree steppedContext ⟨"/"⟩ .empty).1 = .ok compiled ∧
      compiled.bindings.find? "x" = some (.unresolved "{workflow_mode}") ∧
      Variable.insertValues compiled.bindings "<!-- STEP: step -->\n{x}" =
        "<!-- STEP: step -->\n{workflow_mode}" ∧
      compiled.instructions = "<!-- STEP: step -->\nc" := by
  have shown : (compile steppedTree steppedContext ⟨"/"⟩ .empty).1.toOption.map (fun compiled =>
      (compiled.bindings.find? "x",
        Variable.insertValues compiled.bindings "<!-- STEP: step -->\n{x}",
        compiled.instructions)) =
      some (some (.unresolved "{workflow_mode}"),
        "<!-- STEP: step -->\n{workflow_mode}", "<!-- STEP: step -->\nc") := by
    decide +kernel
  obtain ⟨compiled, success, parts⟩ := Outcome.exists_of_map_toOption shown
  simp only [Prod.mk.injEq] at parts
  exact ⟨compiled, success, parts⟩

/-- The document of the workflow is the step, or empty in the other modes. -/
theorem document_stepped {mode : Option Mode} {document : String}
    (loaded : steppedWorkflow.document steppedTree mode = .ok document) :
    document = "" ∨ document = "<!-- STEP: step -->\n{x}" := by
  have step : steppedWorkflow.document steppedTree (some .create) =
      .ok "<!-- STEP: step -->\n{x}" := by
    decide +kernel
  rcases mode with _ | _ | _ | _
  · exact .inl (Except.ok.inj loaded).symm
  · exact .inr (Except.ok.inj (loaded.symm.trans step))
  · exact .inl (Except.ok.inj loaded).symm
  · exact .inl (Except.ok.inj loaded).symm

/-- The variable of the step that mentions the mode is used as it is shown if and only if the text
around it cannot be expanded or a further expansion does not change the variable. -/
theorem reference_gets_shown_value_in_step :
    ∃ compiled, (compile steppedTree steppedContext ⟨"/"⟩ .empty).1 = .ok compiled ∧
      ∀ text,
        Variable.used? compiled.bindings text "x" = some "{workflow_mode}" ↔
          (∃ violation, Variable.expandText compiled.bindings text = .error violation) ∨
            Variable.expandValue compiled.bindings "x" (.unresolved "{workflow_mode}") =
              .ok (.unresolved "{workflow_mode}") := by
  obtain ⟨compiled, success, bound, -⟩ := compile_stepped
  obtain ⟨_, _, _, _, _, _, _, _, _, _, each⟩ := reference_gets_shown_value_iff success
  exact ⟨compiled, success, (each "x" _ bound).1⟩

/-- The instructions of a compiled workflow do not always have the values that the bundle shows. -/
theorem reference_gets_other_value :
    ¬ ∀ (tree : FileTree) (context : Context) (directory : Path) (cache : Cascade.Cache)
        (compiled : Compiled), (compile tree context directory cache).1 = .ok compiled →
      ∀ workflow resolved mode document knowledge,
        obtainValid tree context directory = .ok workflow →
        (cache.resolveWorkflow tree context workflow).1 = .ok resolved →
        CompiledFrom tree context workflow resolved mode document knowledge compiled →
        compiled.instructions =
          Step.appendKnowledge (Variable.insertValues compiled.bindings document) knowledge := by
  intro shown
  obtain ⟨compiled, success, -, inserted, written⟩ := compile_stepped
  obtain ⟨workflow, resolved, obtained, resolution, mode, document, knowledge, stages⟩ :=
    compile_eq_ok success
  have same := shown _ _ _ _ _ success _ _ _ _ _ obtained resolution stages
  have valid : obtainValid steppedTree steppedContext ⟨"/"⟩ = .ok steppedWorkflow := by
    have checked : steppedWorkflow.validate steppedTree = .ok () := by decide +kernel
    simp [obtainValid, obtain, steppedContext, checked, bind, Except.bind, Except.mapError, pure,
      Except.pure]
  obtain rfl := Except.ok.inj (obtained.symm.trans valid)
  have unknown : knowledge = none := by
    rw [← stages.known]
    exact knowledge?_of_unselected (by decide +kernel)
  rw [written, unknown] at same
  rcases document_stepped stages.loaded with rfl | rfl
  · have nothing : Variable.insertValues compiled.bindings "" = "" := rfl
    rw [nothing] at same
    exact absurd same (by decide)
  · rw [inserted] at same
    exact absurd same (by decide)

end Workflow

end WorkflowBundle
