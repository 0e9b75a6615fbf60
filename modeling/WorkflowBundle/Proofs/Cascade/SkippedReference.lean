/-
This file compares a setting that starts with a reference to the configuration, which is skipped,
with the same entry among the declared variables.
-/

import WorkflowBundle.Proofs.Cascade.Precedence
import WorkflowBundle.Proofs.Variable.Scan
import WorkflowBundle.Proofs.Variable.Solution
import WorkflowBundle.Proofs.Yaml.Mapping

namespace WorkflowBundle

namespace Variable

/-- A text that starts with a reference to the configuration is filled with the text of the key and
what the text behind it is filled with. -/
theorem fill_configurationReference {lookup : String → Option String} {raw suffix text : String}
    {found : Reference} (refers : configurationReference? raw.toList = some found)
    (split : raw.toList = found.written ++ suffix.toList) (known : lookup found.name = some text) :
    fill lookup raw = text ++ fill lookup suffix := by
  obtain ⟨name, rest, named, clean, ends, rfl, whole⟩ := enclosed?_eq_some_iff.1 refers
  have read : reference? raw.toList = some ⟨configurationMark ++ name ++ [], String.ofList name⟩ :=
    reference?_eq_some_iff.2 ⟨name, rest, named, clean, rfl, by rw [whole]; simp,
      .inr (.inl ⟨List.append_nil _, ends⟩)⟩
  rw [split] at read
  rw [fill, segments, split, segmentsFrom_reference read, List.flatMap_cons, Segment.replacement,
    known, String.ofList_append]
  exact congrArg (· ++ fill lookup suffix) String.ofList_toList

end Variable

/-- A workflow may be given other settings. -/
def Workflow.withSettings (workflow : Workflow) (settings : Yaml.Mapping) : Workflow :=
  { workflow with settings }

namespace Cascade

open Variable (Table Value)

def declaredMapping (settings : Yaml.Mapping) : Yaml.Mapping :=
  ((settings.find? declarationSetting).bind Yaml.entries?).getD []

/-- An entry is declared when it is set among the declared variables of some settings. -/
def declare (settings : Yaml.Mapping) (key value : Yaml) : Yaml.Mapping :=
  settings.set (.string declarationSetting) (.mapping ((declaredMapping settings).set key value))

/-- The layers of a workflow are merged with the tables that a cache has for it. -/
def Cache.mergedFor (tree : FileTree) (context : Context) (workflow : Workflow) (cache : Cache) :
    Table :=
  merge (layers (cache.fetch tree context workflow.name).1 context workflow.name
    (.ofList (workflowSource workflow)))

section Declared

variable {key value : Yaml} {name : String}

/-- Setting an entry of a mapping changes what the mapping defines under its own name only. -/
theorem mappingProvider_set_of_ne {mapping : Yaml.Mapping} (named : key.text? = some name)
    {other : String} (different : other ≠ name) :
    mappingProvider (mapping.set key value) other = mappingProvider mapping other := by
  refine Yaml.Mapping.findSome?_set fun entry text => if_neg ?_
  rw [text, named, Option.some.injEq]
  exact different.symm

/-- A name that a mapping does not define is defined by an entry that is set. -/
theorem mappingProvider_set {mapping : Yaml.Mapping} (named : key.text? = some name)
    (undefined : mappingProvider mapping name = none) {given : Value}
    (made : Value.ofYaml? value = some given) :
    mappingProvider (mapping.set key value) name = some given := by
  have text {entry : Yaml × Yaml} (equal : entry.1.same key = true ∨ entry.1 = key) :
      entry.1.text? = some name := by
    rcases equal with equal | rfl
    · rw [Yaml.text?_of_same equal, named]
    · exact named
  apply Yaml.findSome?_of_uniform
  · intro entry member
    rcases Yaml.Mapping.mem_set (List.mem_reverse.1 member) with ⟨inside, -⟩ | ⟨set, equal⟩
    · exact .inl (List.findSome?_eq_none_iff.1 undefined entry (List.mem_reverse.2 inside))
    · exact .inr (by rw [if_pos (text equal), set, made])
  · obtain ⟨entry, member, set, equal⟩ := Yaml.Mapping.exists_mem_set mapping key value
    exact ⟨entry, List.mem_reverse.2 member, by rw [if_pos (text equal), set, made]⟩

/-- Declaring an entry changes no setting. -/
theorem settingProvider_declare (settings : Yaml.Mapping) :
    settingProvider (declare settings key value) = settingProvider settings := by
  funext other
  unfold settingProvider
  split
  · rfl
  · rename_i unreserved
    refine Yaml.Mapping.findSome?_set fun entry text => if_neg ?_
    rintro ⟨same, -⟩
    have reserved : declarationSetting ∈ reservedSettings := by decide
    obtain rfl : declarationSetting = other := Option.some.inj (text.symm.trans same)
    exact unreserved reserved

theorem declaredMapping_declare (settings : Yaml.Mapping) :
    declaredMapping (declare settings key value) = (declaredMapping settings).set key value := by
  rw [declare, declaredMapping, Yaml.Mapping.find?_set]
  rfl

/-- Settings define what the mapping of their declared variables defines. -/
theorem declaredProvider_eq (settings : Yaml.Mapping) :
    declaredProvider settings = mappingProvider (declaredMapping settings) := by
  funext other
  rw [declaredProvider, declaredMapping]
  cases (settings.find? declarationSetting).bind Yaml.entries? <;> rfl

variable {tree : FileTree} {context : Context} {cache : Cache} {workflow : Workflow}

/-- Some providers come before those of the workflow and some behind them, whatever its settings
are. -/
theorem exists_providers (tree : FileTree) (context : Context) (cache : Cache)
    (workflow : Workflow) :
    ∃ above below : List Provider, ∀ settings,
      MergedFrom (above ++ ownProviders (workflow.withSettings settings) ++ below)
        (cache.mergedFor tree context (workflow.withSettings settings)) := by
  let tables := (cache.fetch tree context workflow.name).1
  refine ⟨[context.bindings.find?,
      (Dictionary.ofList (reviewSource context workflow.name)).find?, tables.workflow.find?],
    [tables.shared.find?, (Dictionary.ofList (runSource context)).find?, tables.project.find?,
      tables.tests.find?, tables.paths.find?], fun settings other => ?_⟩
  rw [Cache.mergedFor, find?_merge]
  simp only [layers, List.reverse_cons, List.reverse_nil, List.nil_append, List.cons_append,
    List.map_cons, List.map_nil, firstGiven_cons, firstGiven_append, firstGiven_nil,
    find?_workflowSource, Option.or_none]
  rfl

/-- The own providers of a workflow with other settings. -/
theorem firstGiven_ownProviders (workflow : Workflow) (settings : Yaml.Mapping) (name : String) :
    firstGiven (ownProviders (workflow.withSettings settings)) name =
      (directoryProvider workflow name).or ((settingProvider settings name).or
        (mappingProvider (declaredMapping settings) name)) := by
  have directory : directoryProvider (workflow.withSettings settings) =
      directoryProvider workflow := rfl
  rw [← declaredProvider_eq, ownProviders, directory]
  simp [Workflow.withSettings]

/-- Declaring an entry whose name no source defines gives the name its value and changes no other
name. -/
theorem find?_mergedFor_declare {settings : Yaml.Mapping} (named : key.text? = some name)
    (undefined : (cache.mergedFor tree context (workflow.withSettings settings)).find? name = none)
    {given : Value} (made : Value.ofYaml? value = some given) (other : String) :
    (cache.mergedFor tree context
        (workflow.withSettings (declare settings key value))).find? other =
      if other = name then some given
      else (cache.mergedFor tree context (workflow.withSettings settings)).find? other := by
  obtain ⟨above, below, merged⟩ := exists_providers tree context cache workflow
  rw [merged] at undefined
  rw [merged, merged]
  simp only [firstGiven_append, firstGiven_ownProviders, settingProvider_declare,
    declaredMapping_declare, Option.or_eq_none_iff] at undefined ⊢
  obtain ⟨⟨noneAbove, noDirectory, noSetting, noDeclared⟩, -⟩ := undefined
  split
  · rename_i same
    rw [same, noneAbove, noDirectory, noSetting, mappingProvider_set named noDeclared made]
    rfl
  · rename_i different
    rw [mappingProvider_set_of_ne named different]

end Declared

section Skipped

variable {before after : Yaml.Mapping} {key : Yaml} {raw : String}

/-- A setting that starts with a reference to the configuration adds nothing to what a workflow
declares and sets. -/
theorem workflowSource_skip (workflow : Workflow)
    (refers : Variable.isConfigurationReference raw = true)
    (distinct : ∀ entry ∈ before ++ after, entry.1 ≠ key) :
    workflowSource (workflow.withSettings (before ++ (key, .string raw) :: after)) =
      workflowSource (workflow.withSettings (before ++ after)) := by
  have skipped : settingEntry? (key, .string raw) = none := by
    cases named : key.text? <;> simp [named, isVariableSetting, refers, settingEntry?]
  have declared : declaredSource (before ++ (key, .string raw) :: after) =
      declaredSource (before ++ after) := by
    rw [declaredSource, declaredSource, List.append_cons]
    by_cases declares : key = .string declarationSetting
    · subst declares
      have inBefore := Yaml.Mapping.find?_of_forall_ne fun entry member =>
        distinct entry (List.mem_append_left _ member)
      rw [Yaml.Mapping.find?_of_forall_ne distinct, Yaml.Mapping.find?_append,
        Yaml.Mapping.find?_append, inBefore]
      rfl
    · have here : Yaml.Mapping.find? [(key, .string raw)] declarationSetting = none :=
        Yaml.Mapping.find?_of_forall_ne fun entry member => by
          rw [List.mem_singleton.1 member]
          exact declares
      simp only [Yaml.Mapping.find?_append, here, Option.or_none]
  have directory : (workflow.withSettings (before ++ (key, .string raw) :: after)).directory =
      (workflow.withSettings (before ++ after)).directory := rfl
  rw [workflowSource, workflowSource, directory]
  simp only [Workflow.withSettings, declared, List.filterMap_append,
    List.filterMap_cons_none skipped]

variable {tree : FileTree} {context : Context} {cache : Cache} {workflow : Workflow}

/-- A setting that starts with a reference to the configuration is left to the other sources: the
workflow resolves as it does without the setting, and a name that no other source defines stays
undefined. Where the same entry is declared instead, such a name gets the text of the key it refers
to, if that is defined, followed by the rest of the entry with its references replaced. -/
theorem skipped_reference_is_left_to_other_sources {name suffix : String}
    {found : Variable.Reference}
    (settings : workflow.settings = before ++ (key, .string raw) :: after)
    (distinct : ∀ entry ∈ before ++ after, entry.1 ≠ key) (named : key.text? = some name)
    (refers : Variable.configurationReference? raw.toList = some found)
    (split : raw.toList = found.written ++ suffix.toList) :
    cache.resolveWorkflow tree context workflow =
      cache.resolveWorkflow tree context (workflow.withSettings (before ++ after)) ∧
    ((cache.mergedFor tree context (workflow.withSettings (before ++ after))).find? name = none →
      (∀ resolved, (cache.resolveWorkflow tree context workflow).1 = .ok resolved →
        resolved.find? name = none) ∧
      ((cache.mergedFor tree context
          (workflow.withSettings (before ++ after))).contains found.name = true →
        ∀ resolved,
          (cache.resolveWorkflow tree context (workflow.withSettings
            (declare (before ++ after) key (.string raw)))).1 = .ok resolved →
          ∃ text, resolved.text? found.name = some text ∧
            resolved.text? name = some (text ++ Variable.fill resolved.text? suffix))) := by
  have configured : Variable.isConfigurationReference raw = true := by
    rw [Variable.isConfigurationReference, refers]
    rfl
  have same : workflow = workflow.withSettings (before ++ (key, .string raw) :: after) := by
    rw [← settings]
    rfl
  have skipped : cache.resolveWorkflow tree context workflow =
      cache.resolveWorkflow tree context (workflow.withSettings (before ++ after)) := by
    rw [same, Cache.resolveWorkflow, workflowSource_skip workflow configured distinct]
    rfl
  refine ⟨skipped, fun undefined => ⟨?_, ?_⟩⟩
  · intro resolved success
    rw [skipped] at success
    exact Variable.find?_expand_of_none success undefined
  · intro defined resolved success
    have declared := @find?_mergedFor_declare key (.string raw) name tree context cache workflow
      (before ++ after) named undefined (.ofText raw) rfl
    have expanded : Variable.expand (cache.mergedFor tree context (workflow.withSettings
        (declare (before ++ after) key (.string raw)))) = .ok resolved := success
    have solved := Variable.find?_expand_eq expanded
    obtain ⟨value, bound⟩ := Option.isSome_iff_exists.1 defined
    have different : found.name ≠ name := by
      intro same
      rw [same, undefined] at bound
      nomatch bound
    have target : resolved.text? found.name = some (value.filledFrom resolved).render := by
      rw [Table.text?, solved, declared, if_neg different, bound]
      rfl
    refine ⟨_, target, ?_⟩
    rw [← Variable.fill_configurationReference refers split target, Table.text?, solved, declared,
      if_pos rfl, Option.map_some, Value.filledFrom_ofText, Option.map_some, Variable.render_ofText]

end Skipped

/-- The reports go below the output folder of the configuration. -/
def reportReference : String := "\x7bconfig_source\x7d:output_folder/reports"

/-- This workflow sets the directory of its reports. -/
def reportingWorkflow : Workflow where
  name := "demo"
  configPath := ⟨"/demo/workflow.yaml"⟩
  instructionsPath := ⟨"/demo/instructions.md"⟩
  template := none
  validation := none
  settings := [(.string "report_dir", .string reportReference)]
  instructions := "Go."
  kind := .single
  modal := false
  layout := {}

/-- The configuration of the project names an output folder. -/
def reportingContext : Context :=
  { Context.new ⟨"/"⟩ "2024-01-01" with
    configuration := { paths := { outputFolder := some "out" } } }

def reportingTree : FileTree where
  entries := []
  workingDirectory := []

theorem reference_of_reports :
    Variable.configurationReference? reportReference.toList =
      some ⟨"\x7bconfig_source\x7d:output_folder".toList, "output_folder"⟩ := by
  decide

/-- No other source defines the directory of the reports, and one defines the output folder. -/
theorem sources_of_reporting :
    (Cache.empty.mergedFor reportingTree reportingContext
      (reportingWorkflow.withSettings [])).find? "report_dir" = none ∧
    (Cache.empty.mergedFor reportingTree reportingContext
      (reportingWorkflow.withSettings [])).contains "output_folder" = true := by
  decide +kernel

theorem resolved_reporting :
    ∃ resolved, (Cache.empty.resolveWorkflow reportingTree reportingContext
        reportingWorkflow).1 = .ok resolved ∧ resolved.text? "report_dir" = none := by
  have shown : (Cache.empty.resolveWorkflow reportingTree reportingContext
      reportingWorkflow).1.toOption.map (fun resolved => resolved.text? "report_dir") =
        some none := by
    decide +kernel
  exact Outcome.exists_of_map_toOption shown

/-- The directory of the reports is undefined as a setting, and below the output folder if it is
declared. -/
theorem report_directory_is_left_undefined :
    (∃ resolved,
      (Cache.empty.resolveWorkflow reportingTree reportingContext reportingWorkflow).1 =
        .ok resolved ∧ resolved.find? "report_dir" = none) ∧
    ∃ resolved, (Cache.empty.resolveWorkflow reportingTree reportingContext
        (reportingWorkflow.withSettings
          (declare [] (.string "report_dir") (.string reportReference)))).1 = .ok resolved ∧
      resolved.text? "report_dir" = some "out/reports" := by
  obtain ⟨-, left⟩ := @skipped_reference_is_left_to_other_sources [] [] (.string "report_dir")
    reportReference reportingTree reportingContext .empty reportingWorkflow "report_dir" "/reports"
    _ rfl (List.forall_mem_nil _) rfl reference_of_reports (by decide)
  obtain ⟨undefined, defined⟩ := sources_of_reporting
  obtain ⟨absent, declared⟩ := left undefined
  constructor
  · obtain ⟨resolved, success, -⟩ := resolved_reporting
    exact ⟨resolved, success, absent resolved success⟩
  · have shown : (Cache.empty.resolveWorkflow reportingTree reportingContext
        (reportingWorkflow.withSettings (declare [] (.string "report_dir")
          (.string reportReference)))).1.toOption.map
        (fun resolved => resolved.text? "output_folder") = some (some "out") := by
      decide +kernel
    obtain ⟨resolved, success, folder⟩ := Outcome.exists_of_map_toOption shown
    obtain ⟨text, target, value⟩ := declared defined resolved success
    obtain rfl : text = "out" := Option.some.inj (target.symm.trans folder)
    rw [Variable.fill_of_plain (by decide +kernel)] at value
    exact ⟨resolved, success, value⟩

/-- The name of a skipped setting does not get the text that the setting refers to. -/
theorem report_directory_is_not_resolved :
    ¬ ∀ (tree : FileTree) (context : Context) (cache : Cache) (workflow : Workflow)
        (before after : Yaml.Mapping) (key : Yaml) (raw name suffix : String)
        (found : Variable.Reference) (resolved : Table),
      workflow.settings = before ++ (key, .string raw) :: after →
      (∀ entry ∈ before ++ after, entry.1 ≠ key) → key.text? = some name →
      Variable.configurationReference? raw.toList = some found →
      raw.toList = found.written ++ suffix.toList →
      (cache.mergedFor tree context (workflow.withSettings (before ++ after))).find? name = none →
      (cache.mergedFor tree context
        (workflow.withSettings (before ++ after))).contains found.name = true →
      (cache.resolveWorkflow tree context workflow).1 = .ok resolved →
      ∃ text, resolved.text? found.name = some text ∧
        resolved.text? name = some (text ++ suffix) := by
  intro resolves
  obtain ⟨resolved, success, absent⟩ := resolved_reporting
  obtain ⟨undefined, defined⟩ := sources_of_reporting
  obtain ⟨text, -, value⟩ := resolves reportingTree reportingContext .empty reportingWorkflow [] []
    (.string "report_dir") reportReference "report_dir" "/reports" _ resolved rfl
    (List.forall_mem_nil _) rfl reference_of_reports (by decide) undefined defined success
  nomatch absent.symm.trans value

end Cascade

end WorkflowBundle
