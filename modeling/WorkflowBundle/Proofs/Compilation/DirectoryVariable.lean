/-
This file says which value the variable of the directory has in a compiled workflow, and when this is
the directory that the workflow is parsed from.
-/

import WorkflowBundle.Proofs.Cascade.Transparency
import WorkflowBundle.Proofs.Compilation.RunVariables
import WorkflowBundle.Proofs.Variable.Solution
import WorkflowBundle.Proofs.Workflow.Directory

namespace WorkflowBundle

open Cascade (Cache Faithful Request configurationsOf directoryVariable overrideProvider)
open FileTree (Grounded)
open WorkflowBundle.Path (ofNames)
open Variable (Table Value)

namespace Cascade

/-- The variable of the directory starts as its override, or else as the path of the directory that
the workflow has. -/
def directoryValue (configuration : Configuration) (workflow : Workflow) : Value :=
  (overrideProvider configuration workflow.name directoryVariable).getD
    (.ofText workflow.directory.text)

theorem directoryValue_of_override {configuration : Configuration} {workflow : Workflow}
    {value : Value}
    (overridden : overrideProvider configuration workflow.name directoryVariable = some value) :
    directoryValue configuration workflow = value := by
  rw [directoryValue, overridden, Option.getD_some]

theorem directoryValue_of_none {configuration : Configuration} {workflow : Workflow}
    (kept : overrideProvider configuration workflow.name directoryVariable = none) :
    directoryValue configuration workflow = .ofText workflow.directory.text := by
  rw [directoryValue, kept, Option.getD_none]

/-- In the merged table the variable starts like this, whatever the settings of the workflow and the
shared defaults define. -/
theorem find?_merged_directoryVariable {tree : FileTree} {source : Request} {context : Context}
    {workflow : Workflow} (named : source.workflow = workflow.name)
    (configured : source.context.configuration = context.configuration)
    (unset : context.bindings.find? directoryVariable = none) :
    ((Request.parsed context workflow).merged (source.tables tree)).find? directoryVariable =
      some (directoryValue context.configuration workflow) := by
  have own : (Request.parsed context workflow).own.find? directoryVariable =
      some (.ofText workflow.directory.text) := by
    rw [Request.own, find?_workflowSource]
    rfl
  -- Between the override and the workflow's own table no layer defines the name, and this table hides
  -- the layers below it.
  have review : reviewProvider context workflow.name directoryVariable = none := rfl
  have platform : platformProvider tree source.context workflow.name directoryVariable = none := rfl
  rw [@find?_merged tree source (.parsed context workflow) named configured]
  change firstGiven (precedenceSeenBy tree source.context context workflow.name
    [(Request.parsed context workflow).own.find?]) directoryVariable = _
  simp only [precedenceSeenBy, List.cons_append, List.nil_append, firstGiven_cons, own, review,
    platform, unset, Option.none_or, Option.some_or, directoryValue]
  cases overrideProvider context.configuration workflow.name directoryVariable <;> rfl

/-- In a resolution the references of that value are replaced. -/
theorem find?_resolveWorkflow_directoryVariable {tree : FileTree} {context : Context}
    {workflow : Workflow} {calls : List Call} {resolved : Table}
    (faithful : Faithful (context.configuration :: configurationsOf calls))
    (unset : context.bindings.find? directoryVariable = none)
    (success : ((Cache.after tree calls).resolveWorkflow tree context workflow).1 = .ok resolved) :
    resolved.find? directoryVariable =
      some ((directoryValue context.configuration workflow).filledFrom resolved) := by
  obtain ⟨-, key, configured⟩ :=
    @source_of_faithful tree calls (.parsed context workflow) faithful
  have merged := @find?_merged_directoryVariable tree _ context workflow
    (congrArg CacheKey.workflow key) configured unset
  have expanded := (answer_after tree calls (.parsed context workflow)).symm.trans success
  rw [Variable.find?_expand_eq expanded, merged]
  rfl

end Cascade

namespace Workflow

/-- A context that brings no other workflow along has the one that is parsed from the directory. -/
theorem parse_of_obtainValid {tree : FileTree} {context : Context} {path : Path}
    {workflow : Workflow}
    (brought : ∀ other, context.workflow = some other → parse tree path = .ok other)
    (obtained : obtainValid tree context path = .ok workflow) :
    parse tree path = .ok workflow := by
  rw [obtainValid] at obtained
  obtain ⟨found, here, checked⟩ := Outcome.bind_eq_ok_iff.1 obtained
  obtain ⟨_, -, same⟩ := Outcome.bind_eq_ok_iff.1 checked
  obtain rfl := Outcome.pure_eq_ok_iff.1 same
  rw [obtain] at here
  split at here
  · rename_i other given
    obtain rfl := Except.ok.inj here
    exact brought other given
  · split at here
    · exact Outcome.mapError_eq_ok_iff.1 here
    · cases here

/-- A compilation keeps the resolved variable of the directory. -/
theorem CompiledFrom.find?_directoryVariable {tree : FileTree} {context : Context}
    {workflow : Workflow} {resolved : Table} {mode : Option Mode} {document : String}
    {knowledge : Option String} {compiled : Compiled}
    (stages : CompiledFrom tree context workflow resolved mode document knowledge compiled) :
    compiled.bindings.find? directoryVariable = resolved.find? directoryVariable := by
  rw [stages.bindings, find?_withSelection mode knowledge (by decide), if_neg (by decide)]

/-- If the run does not set the variable of the directory, a workflow that is compiled has the
override for it, or else the path of the directory that its configuration file leads into, with the
references replaced. So it names the directory that the workflow is parsed from if and only if the
override is filled to this path, or there is none and the path of the other directory is. A path
without placeholders is filled to itself, and then the variable is right exactly if the configuration
file is not linked elsewhere. The settings of the workflow and the shared defaults do not count. -/
theorem directory_variable_names_directory_iff {tree : FileTree} {context : Context} {path : Path}
    {calls : List Cascade.Call} {compiled : Compiled}
    (working : Grounded tree tree.workingDirectory)
    (faithful : Faithful (context.configuration :: configurationsOf calls))
    (brought : ∀ other, context.workflow = some other → parse tree path = .ok other)
    (unset : context.bindings.find? directoryVariable = none)
    (success : (compile tree context path (Cache.after tree calls)).1 = .ok compiled) :
    ∃ location name workflow resolved,
      tree.canonical path = .ok (ofNames location) ∧ parse tree path = .ok workflow ∧
      mergedSettings tree (ofNames location) =
        .ok (workflow.settings, (ofNames location).join name) ∧
      (workflow.directory = ofNames location ↔ ¬ LinkedElsewhere tree location name) ∧
      ((Cache.after tree calls).resolveWorkflow tree context workflow).1 = .ok resolved ∧
      (∀ value,
        overrideProvider context.configuration workflow.name directoryVariable = some value →
        compiled.bindings.find? directoryVariable = some (value.filledFrom resolved) ∧
        (compiled.bindings.text? directoryVariable = some (ofNames location).text ↔
          (value.filledFrom resolved).render = (ofNames location).text)) ∧
      (overrideProvider context.configuration workflow.name directoryVariable = none →
        compiled.bindings.find? directoryVariable =
          some (.ofText (Variable.fill resolved.text? workflow.directory.text)) ∧
        (compiled.bindings.text? directoryVariable = some (ofNames location).text ↔
          Variable.fill resolved.text? workflow.directory.text = (ofNames location).text) ∧
        ((∀ found, .reference found ∈ Variable.segments workflow.directory.text →
            resolved.find? found.name = none) →
          (compiled.bindings.text? directoryVariable = some (ofNames location).text ↔
            ¬ LinkedElsewhere tree location name))) := by
  obtain ⟨workflow, resolved, obtained, resolution, mode, document, knowledge, stages⟩ :=
    compile_eq_ok success
  have parsed := parse_of_obtainValid brought obtained
  obtain ⟨directory, _, configPath, _, _, located, -, headed⟩ := exists_stages_of_parse parsed
  obtain ⟨location, rfl, grounded, -⟩ := FileTree.exists_names_of_canonical working located
  obtain ⟨name, file, -, rfl, -, -, stays⟩ := headed.directory_eq_iff grounded
  have value : compiled.bindings.find? directoryVariable =
      some ((Cascade.directoryValue context.configuration workflow).filledFrom resolved) :=
    stages.find?_directoryVariable.trans
      (Cascade.find?_resolveWorkflow_directoryVariable faithful unset resolution)
  refine ⟨location, name, workflow, resolved, located, parsed, headed.merged, stays, resolution,
    ?_, ?_⟩
  · intro override overridden
    rw [Cascade.directoryValue_of_override overridden] at value
    refine ⟨value, ?_⟩
    rw [Table.text?, value, Option.map_some, Option.some_inj]
  · intro kept
    rw [Cascade.directoryValue_of_none kept, Value.filledFrom_ofText] at value
    have shown : compiled.bindings.text? directoryVariable =
        some (Variable.fill resolved.text? workflow.directory.text) := by
      rw [Table.text?, value, Option.map_some, Variable.render_ofText]
    refine ⟨value, ?_, fun undefined => ?_⟩
    · rw [shown, Option.some_inj]
    · rw [shown, Option.some_inj, Variable.fill_of_undefined undefined, ← stays]
      exact ⟨congrArg Path.mk, congrArg Path.text⟩

/-- The settings of this workflow set the variable of its directory themselves. -/
def placedTree : FileTree where
  entries :=
    [(["w"], .directory),
      (["w", "workflow.yaml"], .file ⟨"installed_path: elsewhere".toUTF8.data⟩),
      (["w", "instructions.md"], .file ⟨"Go.".toUTF8.data⟩)]
  workingDirectory := []

/-- The workflow is compiled with overrides. -/
def placedContext (overrides : Dictionary Yaml.Mapping) : Context :=
  { Context.new ⟨"/"⟩ "2024-01-01" with configuration := { overrides } }

/-- The context brings no workflow along. -/
theorem parse_of_placedContext (tree : FileTree) (overrides : Dictionary Yaml.Mapping)
    (other : Workflow) (brought : (placedContext overrides).workflow = some other) :
    parse tree ⟨"/w"⟩ = .ok other := by
  have unparsed : (placedContext overrides).workflow = none := rfl
  nomatch unparsed.symm.trans brought

/-- Without overrides the variable has the directory and not what the settings say. The workflow
whose configuration file is linked elsewhere has another directory there. -/
theorem directory_variable_of_placed_and_linked :
    (∃ compiled, (compile placedTree (placedContext ∅) ⟨"/w"⟩ .empty).1 = .ok compiled ∧
      compiled.bindings.text? directoryVariable = some "/w") ∧
    ∃ compiled, (compile linkedTree (placedContext ∅) ⟨"/w"⟩ .empty).1 = .ok compiled ∧
      compiled.bindings.text? directoryVariable ≠ some "/w" := by
  have faithful : Faithful ((placedContext ∅).configuration :: configurationsOf []) := by
    intro first firstMember second secondMember _
    rw [List.mem_singleton.1 firstMember, List.mem_singleton.1 secondMember]
  have named {tree : FileTree} {holder : Path} {compiled : Compiled}
      (working : Grounded tree tree.workingDirectory)
      (canonical : tree.canonical ⟨"/w"⟩ = .ok ⟨"/w"⟩)
      (held : (parse tree ⟨"/w"⟩).toOption.map directory = some holder)
      (plain : Variable.hasPlaceholder holder.text = false)
      (success : (compile tree (placedContext ∅) ⟨"/w"⟩ .empty).1 = .ok compiled) :
      compiled.bindings.text? directoryVariable = some "/w" ↔ holder = ⟨"/w"⟩ := by
    obtain ⟨location, name, workflow, resolved, located, parsed, -, stays, -, -, kept⟩ :=
      @directory_variable_names_directory_iff tree (placedContext ∅) ⟨"/w"⟩ [] compiled working
        faithful (parse_of_placedContext tree ∅) rfl success
    rw [parsed] at held
    obtain rfl := Option.some.inj held
    obtain ⟨-, -, unlinked⟩ := kept rfl
    rw [← Except.ok.inj (canonical.symm.trans located)] at stays unlinked
    rw [stays]
    refine unlinked fun found member => ?_
    exact absurd member (Variable.not_mem_segments_of_plain plain found)
  constructor
  · have shown : (compile placedTree (placedContext ∅) ⟨"/w"⟩ .empty).1.toOption.map
        Compiled.name = some "w" := by
      decide +kernel
    obtain ⟨compiled, success, -⟩ := Outcome.exists_of_map_toOption shown
    exact ⟨compiled, success, (named .root (by decide +kernel) (by decide +kernel)
      (by decide +kernel) success).2 rfl⟩
  · have shown : (compile linkedTree (placedContext ∅) ⟨"/w"⟩ .empty).1.toOption.map
        Compiled.name = some "demo" := by
      decide +kernel
    have moved : (parse linkedTree ⟨"/w"⟩).toOption.map directory = some ⟨"/shared"⟩ := by
      decide +kernel
    obtain ⟨compiled, success, -⟩ := Outcome.exists_of_map_toOption shown
    refine ⟨compiled, success, fun same => ?_⟩
    have elsewhere :=
      (named .root (by decide +kernel) moved (by decide +kernel) success).1 same
    exact absurd elsewhere (by decide)

/-- The variable of the directory is not always the directory, because the configuration may
override it. -/
theorem directory_variable_is_overridden :
    ¬ ∀ (tree : FileTree) (context : Context) (path directory : Path) (compiled : Compiled),
      Grounded tree tree.workingDirectory →
      (∀ other, context.workflow = some other → parse tree path = .ok other) →
      tree.canonical path = .ok directory → context.bindings.find? directoryVariable = none →
      (compile tree context path .empty).1 = .ok compiled →
      compiled.bindings.text? directoryVariable = some directory.text := by
  intro placed
  have shown : (compile placedTree (placedContext (.ofList
      [("w", [(.string "installed_path", .string "b")])])) ⟨"/w"⟩ .empty).1.toOption.map
      (fun compiled => compiled.bindings.text? directoryVariable) = some (some "b") := by
    decide +kernel
  obtain ⟨compiled, success, overridden⟩ := Outcome.exists_of_map_toOption shown
  have located : placedTree.canonical ⟨"/w"⟩ = .ok ⟨"/w"⟩ := by decide +kernel
  have same := placed _ _ _ _ compiled .root (parse_of_placedContext _ _) located rfl success
  rw [overridden] at same
  exact absurd same (by decide)

end Workflow

end WorkflowBundle
