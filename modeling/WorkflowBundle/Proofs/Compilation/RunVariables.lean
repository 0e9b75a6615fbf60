/-
This file follows the variables of a run through a compilation.
-/

import WorkflowBundle.Proofs.Cascade.Precedence
import WorkflowBundle.Proofs.Compilation.ShownValues

namespace WorkflowBundle

open Variable (Table Value)

namespace Variable

/-- A value holds no placeholder when it is resolved or its text has none. -/
def Value.IsPlain (value : Value) : Prop :=
  ∀ raw, value = .unresolved raw → hasPlaceholder raw = false

/-- A value settles as itself, and an unresolved one as its text. -/
def Value.settled : Value → Value
  | .unresolved raw => .text raw
  | value => value

/-- A plain value expands to what it settles as. -/
theorem expandValue_of_plain (table : Table) (name : String) {value : Value}
    (plain : value.IsPlain) : expandValue table name value = .ok value.settled := by
  cases value with
  | unresolved raw =>
      have none := plain raw rfl
      have unchanged : expandWithin table chainLimit [name] raw = .ok raw :=
        expandWithin_of_unknown fun found member =>
          absurd member (not_mem_segments_of_plain none found)
      simp [expandValue, unchanged, Except.map, Value.ofText, none, Value.settled]
  | _ => rfl

theorem find?_expand_of_isPlain {table result : Table} (expanded : expand table = .ok result)
    {name : String} {value : Value} (found : table.find? name = some value)
    (plain : value.IsPlain) : result.find? name = some value.settled := by
  have related := find?_expand expanded name
  rw [found] at related
  generalize result.find? name = new at related ⊢
  cases related with
  | some step =>
      rw [expandValue_of_plain table name plain] at step
      rw [Except.ok.inj step]

end Variable

namespace Cascade

/-- A resolution with any cache has the plain variables of the run. -/
theorem Cache.find?_resolveWorkflow_of_run {tree : FileTree} {context : Context}
    {workflow : Workflow} {cache : Cache} {resolved : Table}
    (success : (cache.resolveWorkflow tree context workflow).1 = .ok resolved)
    {name : String} {value : Value} (bound : context.bindings.find? name = some value)
    (plain : value.IsPlain) : resolved.find? name = some value.settled :=
  Variable.find?_expand_of_isPlain success (find?_merge_layers_of_run _ _ _ bound) plain

end Cascade

namespace Workflow

/-- Apart from the mode, the selection changes only the variable of the knowledge, and only if there
is knowledge. -/
theorem find?_withSelection {bindings : Table} (mode : Option Mode) (knowledge : Option String)
    {name : String} (other : name ≠ modeVariable) :
    (withSelection bindings mode knowledge).find? name =
      if name = knowledgeVariable then (knowledge.map Value.ofText).or (bindings.find? name)
      else bindings.find? name := by
  have withMode : (withSelection bindings mode none).find? name = bindings.find? name := by
    cases mode with
    | none => rfl
    | some selected => simp [withSelection, other]
  cases knowledge with
  | none => simpa using withMode
  | some content =>
      change ((withSelection bindings mode none).insert knowledgeVariable _).find? name = _
      rw [Dictionary.find?_insert, withMode]
      rfl

/-- A variable of the run other than the mode whose value holds no placeholder is resolved to its
value. The compiled workflow has this value as well if and only if the variable is not the one of
the knowledge, or there is no knowledge, or the value is the knowledge itself. -/
theorem run_variable_is_kept_iff {tree : FileTree} {context : Context} {directory : Path}
    {cache : Cascade.Cache} {compiled : Compiled}
    (success : (compile tree context directory cache).1 = .ok compiled) :
    ∃ workflow resolved mode document knowledge,
      obtainValid tree context directory = .ok workflow ∧
      (cache.resolveWorkflow tree context workflow).1 = .ok resolved ∧
      CompiledFrom tree context workflow resolved mode document knowledge compiled ∧
      ∀ name value, context.bindings.find? name = some value → value.IsPlain →
        name ≠ modeVariable →
        resolved.find? name = some value.settled ∧
        (compiled.bindings.find? name = some value.settled ↔
          ∀ content, name = knowledgeVariable → knowledge = some content →
            Value.ofText content = value.settled) := by
  obtain ⟨workflow, resolved, obtained, resolution, mode, document, knowledge, stages⟩ :=
    compile_eq_ok success
  refine ⟨workflow, resolved, mode, document, knowledge, obtained, resolution, stages, ?_⟩
  intro name value bound plain other
  have kept := Cascade.Cache.find?_resolveWorkflow_of_run resolution bound plain
  refine ⟨kept, ?_⟩
  rw [stages.bindings, find?_withSelection mode knowledge other, kept]
  by_cases known : name = knowledgeVariable
  · cases knowledge with
    | none => simp
    | some content => simp [known]
  · simp [known]

/-- This tree has an index of knowledge with one fragment. -/
def knownTree : FileTree where
  entries :=
    [(["_knowledge"], .directory),
      (["_knowledge", "index.csv"],
        .file ⟨"id,name,description,fragment_file,tags\nnetwork-first,,,a.md,".toUTF8.data⟩),
      (["_knowledge", "a.md"], .file ⟨"Wait.".toUTF8.data⟩),
      (["instructions.md"], .file ⟨"Go.".toUTF8.data⟩)]
  workingDirectory := []

/-- This workflow selects the fragment. -/
def knownWorkflow : Workflow where
  name := "atdd"
  configPath := ⟨"/workflow.yaml"⟩
  instructionsPath := ⟨"/instructions.md"⟩
  template := none
  validation := none
  settings := []
  instructions := "Go."
  kind := .single
  modal := false
  layout := {}

/-- The workflow is compiled with a variable that has the name of the knowledge, and with one that
every project defines. -/
def knownContext : Context :=
  { Context.new ⟨"/"⟩ "2024-01-01" with
    bindings := .ofList [("knowledge_base", .ofText "mine"), ("test_dir", .ofText "mine")]
    workflow := some knownWorkflow }

/-- The knowledge takes the place of the variable of the run with its name. -/
theorem compile_known :
    ∃ compiled, (compile knownTree knownContext ⟨"/"⟩ .empty).1 = .ok compiled ∧
      compiled.bindings.find? "knowledge_base" =
        some (.text "<!-- KNOWLEDGE: network-first -->\nWait.") := by
  have shown : (compile knownTree knownContext ⟨"/"⟩ .empty).1.toOption.map (fun compiled =>
      compiled.bindings.find? "knowledge_base") =
      some (some (.text "<!-- KNOWLEDGE: network-first -->\nWait.")) := by
    decide +kernel
  exact Outcome.exists_of_map_toOption shown

/-- The variable of the run that the project defines too is kept. -/
theorem run_variable_is_kept_over_project :
    ∃ compiled, (compile knownTree knownContext ⟨"/"⟩ .empty).1 = .ok compiled ∧
      compiled.bindings.find? "test_dir" = some (.text "mine") := by
  obtain ⟨compiled, success, -⟩ := compile_known
  obtain ⟨_, _, _, _, _, -, -, -, each⟩ := run_variable_is_kept_iff success
  have bound : knownContext.bindings.find? "test_dir" = some (.text "mine") := by decide +kernel
  obtain ⟨-, kept⟩ := each "test_dir" (.text "mine") bound nofun (by decide)
  refine ⟨compiled, success, kept.2 ?_⟩
  intro content known
  exact absurd known (by decide)

/-- A compilation does not always keep the variables of the run. -/
theorem run_variable_is_overwritten :
    ¬ ∀ (tree : FileTree) (context : Context) (directory : Path) (cache : Cascade.Cache)
        (compiled : Compiled), (compile tree context directory cache).1 = .ok compiled →
      ∀ name value, context.bindings.find? name = some value →
        Variable.hasPlaceholder value.render = false → name ≠ modeVariable →
        compiled.bindings.find? name = some value := by
  intro kept
  obtain ⟨compiled, success, overwritten⟩ := compile_known
  have bound : knownContext.bindings.find? "knowledge_base" = some (.text "mine") := by
    decide +kernel
  have same := kept _ _ _ _ _ success "knowledge_base" (.text "mine") bound (by decide +kernel)
    (by decide)
  rw [overwritten] at same
  exact absurd same (by decide +kernel)

end Workflow

end WorkflowBundle
