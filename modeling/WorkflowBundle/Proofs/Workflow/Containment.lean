/-
This file says where the files lie that the instructions of a workflow are read from.
-/

import WorkflowBundle.Proofs.FileTree.Containment
import WorkflowBundle.Proofs.Step.Walk
import WorkflowBundle.Proofs.Workflow.Parsing

namespace WorkflowBundle

open FileTree (Descends Grounded LeadsOut Realizable Sealed SettledIn)
open WorkflowBundle.Path (IsFileName ofNames)

/-- The first step of a mode is a file that descends from the directory of the workflow. -/
theorem Layout.descends_firstStep {tree : FileTree} (realizable : Realizable tree)
    {location : List String} (grounded : Grounded tree location) {mode : Mode} {first : Path}
    (found : (Layout.detect tree (ofNames location)).firstStep? mode = some first) :
    Descends tree location first ∧ tree.isFile first = true := by
  obtain ⟨name, named, same, isFile⟩ :=
    FileTree.exists_name_of_mem_filesIn realizable (mem_filesIn_of_firstStep? found)
  have folder : IsFileName mode.directory := by cases mode <;> decide
  refine ⟨?_, isFile⟩
  rw [same]
  exact FileTree.descends_join_join grounded folder named

namespace Workflow

/-- The files whose text can become the instructions of a workflow are its document and the steps of
the chain of each mode. -/
inductive IsSource (tree : FileTree) (workflow : Workflow) : Path → Prop where
  | document : IsSource tree workflow workflow.instructionsPath
  | step {mode : Mode} {first : Path} {steps : List Step} {step : Step}
      (starts : workflow.firstStep? mode = some first)
      (linked : Step.chain tree first = .ok steps) (member : step ∈ steps) :
      IsSource tree workflow step.path

section

variable {tree : FileTree} {location : List String}

/-- A directory with settings is one. -/
theorem holdsDirectory_of_mergedSettings (grounded : Grounded tree location)
    {settings : Yaml.Mapping} {configPath : Path}
    (merged : mergedSettings tree (ofNames location) = .ok (settings, configPath)) :
    tree.holdsDirectory location = true := by
  have relative : ∀ file ∈ [definitionFile, frontMatterFile],
      (Path.mk file).isAbsolute = false := by
    decide
  obtain ⟨file, member, rfl, isFile⟩ := configPath_of_mergedSettings merged
  obtain ⟨_, _, located, -⟩ := FileTree.exists_location_of_isFile isFile
  exact FileTree.holdsDirectory_of_locate_join grounded (relative file member) located

/-- The document of a parsed workflow descends from its directory and exists. -/
theorem descends_chosen (realizable : Realizable tree) (grounded : Grounded tree location)
    {settings : Yaml.Mapping} {configPath named chosen : Path} {workflow : Workflow}
    (stages : ParsedFrom tree (ofNames location) settings configPath named chosen workflow) :
    Descends tree location chosen ∧ ∃ names, tree.locate chosen = .ok names := by
  refine ⟨?_, stages.exists_location⟩
  obtain ⟨text, loaded⟩ := stages.selected
  rcases loadInstructions_eq_ok loaded with ⟨rfl, -⟩ | ⟨mode, first⟩
  · obtain ⟨reference, accepted, rfl⟩ := exists_reference_of_instructionsFor stages.referred
    exact FileTree.descends_join grounded accepted
  · exact (Layout.descends_firstStep realizable grounded first).1

/-- The target of a step settles in the directory where the step has settled. -/
theorem settledIn_of_target? (sealed : Sealed tree location) {path next : Path} {step : Step}
    (settled : SettledIn tree location path) (parsed : Step.Parses tree path step)
    (linked : Step.target? tree path = some next) : SettledIn tree location next := by
  obtain ⟨names, rfl, grounded, within⟩ := settled
  obtain ⟨text, read, accepted, -⟩ := parsed
  -- The step is a file, so it is not the directory itself, and its parent is still inside.
  obtain ⟨file, content, located, present⟩ := FileTree.exists_location_of_read read
  obtain rfl := Except.ok.inj (located.symm.trans (FileTree.locate_ofNames grounded))
  have below : file ≠ location := by
    rintro rfl
    have directory := sealed.directory
    rw [FileTree.holdsDirectory, present] at directory
    nomatch directory
  have written : file ≠ [] := by
    rintro rfl
    exact below (List.prefix_nil.1 within).symm
  have inside : location <+: file.dropLast := by
    rw [← List.dropLast_concat_getLast written, List.prefix_concat_iff,
      List.dropLast_concat_getLast written] at within
    exact within.resolve_left (Ne.symm below)
  have parent := Path.parent?_ofNames written grounded.named
  rw [Step.target?] at linked
  simp only [read, parent, Except.toOption, Option.bind_eq_bind, Option.bind_some,
    Option.getD_some] at linked
  obtain ⟨reference, referred, linked⟩ := Option.bind_eq_some_iff.1 linked
  cases found : tree.canonical ((ofNames file.dropLast).join reference) with
  | error fault => simp [found] at linked
  | ok resolved =>
      obtain rfl : resolved = next := by simpa [found] using linked
      exact sealed.settledIn grounded.dropLast inside
        (FileTree.descends_join grounded.dropLast (accepted reference referred)) found

/-- The steps of a chain settle in the directory in which the first one does. -/
theorem settledIn_of_chain (sealed : Sealed tree location) {first start : Path}
    {steps : List Step} (located : tree.canonical first = .ok start)
    (settled : SettledIn tree location start) (linked : Step.chain tree first = .ok steps) :
    ∀ step ∈ steps, SettledIn tree location step.path := by
  obtain ⟨walk, ⟨⟨found, same, starts⟩, chained⟩, -, -, -, each⟩ := Step.chain_eq_ok_iff.1 linked
  obtain rfl := Except.ok.inj (located.symm.trans same)
  obtain rfl : walk = steps.map Step.path := by
    rw [← List.forall₂_eq_eq_eq, List.forall₂_map_right_iff]
    refine each.imp fun path step parsed => ?_
    obtain ⟨_, -, -, rfl⟩ := parsed
    rfl
  rw [List.forall₂_map_left_iff, List.forall₂_same] at each
  have hops : (steps.map Step.path).IsChain fun path next =>
      Step.target? tree path = some next ∧ ∃ step, Step.Parses tree path step := by
    refine chained.imp_of_mem_imp fun path next member _ target => ⟨target, ?_⟩
    obtain ⟨step, inside, rfl⟩ := List.mem_map.1 member
    exact ⟨step, each step inside⟩
  have everywhere : ∀ path ∈ steps.map Step.path, SettledIn tree location path := by
    apply hops.induction (SettledIn tree location)
    · rintro path next ⟨target, step, parses⟩ here
      exact settledIn_of_target? sealed here parses target
    · intro written
      have head := (List.head?_eq_some_head written).symm.trans starts
      exact Option.some.inj head ▸ settled
  exact fun step member => everywhere step.path (List.mem_map_of_mem member)

/-- The sources of a parsed workflow settle in every sealed directory above its own or equal to
it. -/
theorem settledIn_of_isSource (realizable : Realizable tree) {directory : List String}
    (sealed : Sealed tree directory) (grounded : Grounded tree location)
    (within : directory <+: location) {settings : Yaml.Mapping} {configPath named chosen : Path}
    {workflow : Workflow}
    (stages : ParsedFrom tree (ofNames location) settings configPath named chosen workflow)
    {source : Path} (isSource : IsSource tree workflow source) :
    SettledIn tree directory source := by
  cases isSource with
  | document =>
      obtain ⟨descends, names, located⟩ := descends_chosen realizable grounded stages
      have resolved := FileTree.canonical_of_locate located
      rw [stages.instructionsPath, FileTree.canonicalOrSelf, resolved]
      exact sealed.settledIn grounded within descends resolved
  | @step mode first steps step starts linked member =>
      rw [firstStep?, stages.layout] at starts
      obtain ⟨descends, -⟩ := Layout.descends_firstStep realizable grounded starts
      obtain ⟨walk, ⟨⟨start, located, -⟩, -⟩, -⟩ := Step.chain_eq_ok_iff.1 linked
      have settled := sealed.settledIn grounded within descends located
      exact settledIn_of_chain sealed located settled linked step member

end

/-- Every source of the instructions of a parsed workflow is a canonical path, and it lies in the
directory of the workflow unless a link in this directory leads out. -/
theorem sources_lie_inside_unless_link_leads_out {tree : FileTree}
    (realizable : Realizable tree) {path directory : Path} {workflow : Workflow}
    (located : tree.canonical path = .ok directory) (parsed : parse tree path = .ok workflow) :
    ∀ source, IsSource tree workflow source →
      tree.canonical source = .ok source ∧
        (source.startsWith directory = true ∨ ∃ link, LeadsOut tree directory link) := by
  intro source isSource
  obtain ⟨location, rfl, grounded, -⟩ :=
    FileTree.exists_names_of_canonical realizable.working located
  obtain ⟨_, settings, configPath, named, chosen, same, stages⟩ := parse_eq_ok parsed
  obtain rfl := Except.ok.inj (same.symm.trans located)
  constructor
  · -- Everything settles in the root, so every source is the path of a grounded location.
    obtain ⟨names, rfl, settled, -⟩ := settledIn_of_isSource realizable
      (FileTree.sealed_root realizable.working) grounded List.nil_prefix stages isSource
    exact FileTree.canonical_ofNames settled
  · by_cases leads : ∃ link, LeadsOut tree (ofNames location) link
    · exact .inr leads
    · have sealed : Sealed tree location :=
        ⟨realizable.working, grounded, holdsDirectory_of_mergedSettings grounded stages.merged,
          not_exists.1 leads⟩
      obtain ⟨names, rfl, settled, within⟩ := settledIn_of_isSource realizable sealed grounded
        (List.prefix_refl location) stages isSource
      exact .inl ((Path.startsWith_ofNames_iff settled.named grounded.named).2 within)

/-- The first step of this workflow is a link to a file beside the workflow. -/
def openTree : FileTree where
  entries :=
    [(["w"], .directory), (["w", "workflow.md"], .file ⟨"".toUTF8.data⟩),
      (["w", "steps-c"], .directory),
      (["w", "steps-c", "step-01.md"], .link ⟨"../../notes/step.md"⟩),
      (["notes"], .directory), (["notes", "step.md"], .file ⟨"Private.".toUTF8.data⟩)]
  workingDirectory := []

theorem realizable_openTree :
    Realizable openTree ∧ openTree.canonical ⟨"/w"⟩ = .ok ⟨"/w"⟩ :=
  ⟨⟨by decide, .root⟩, by decide +kernel⟩

theorem parse_openTree :
    ∃ workflow, parse openTree ⟨"/w"⟩ = .ok workflow ∧
      IsSource openTree workflow ⟨"/notes/step.md"⟩ := by
  have shown : (parse openTree ⟨"/w"⟩).toOption.map (·.firstStep? .create) =
      some (some ⟨"/w/steps-c/step-01.md"⟩) := by
    decide +kernel
  have linked : (Step.chain openTree ⟨"/w/steps-c/step-01.md"⟩).toOption.map
      (·.map Step.path) = some [⟨"/notes/step.md"⟩] := by
    decide +kernel
  obtain ⟨workflow, parsed, first⟩ := Outcome.exists_of_map_toOption shown
  obtain ⟨steps, chained, paths⟩ := Outcome.exists_of_map_toOption linked
  obtain ⟨step, member, same⟩ : ∃ step ∈ steps, step.path = ⟨"/notes/step.md"⟩ :=
    List.mem_map.1 (paths ▸ List.mem_singleton_self _)
  exact ⟨workflow, parsed, same ▸ .step first chained member⟩

/-- The file beside the workflow is canonical, and a link in the directory leads out to it. -/
theorem source_beside_workflow_is_linked :
    openTree.canonical ⟨"/notes/step.md"⟩ = .ok ⟨"/notes/step.md"⟩ ∧
      ∃ link, LeadsOut openTree ⟨"/w"⟩ link := by
  obtain ⟨realizable, located⟩ := realizable_openTree
  obtain ⟨workflow, parsed, isSource⟩ := parse_openTree
  obtain ⟨canonical, inside | leads⟩ :=
    sources_lie_inside_unless_link_leads_out realizable located parsed _ isSource
  · exact absurd inside (by decide)
  · exact ⟨canonical, leads⟩

/-- A source of the instructions of a parsed workflow can lie outside of its directory. -/
theorem source_lies_outside :
    ¬ ∀ (tree : FileTree) (path directory : Path) (workflow : Workflow), Realizable tree →
      tree.canonical path = .ok directory → parse tree path = .ok workflow →
      ∀ source, IsSource tree workflow source → ∀ resolved,
        tree.canonical source = .ok resolved → resolved.startsWith directory = true := by
  intro contained
  obtain ⟨realizable, located⟩ := realizable_openTree
  obtain ⟨workflow, parsed, isSource⟩ := parse_openTree
  have canonical : openTree.canonical ⟨"/notes/step.md"⟩ = .ok ⟨"/notes/step.md"⟩ := by
    decide +kernel
  have inside := contained _ _ _ _ realizable located parsed _ isSource _ canonical
  exact absurd inside (by decide)

end Workflow

end WorkflowBundle
