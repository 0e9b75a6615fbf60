/-
This file says which stages a parsed workflow went through and what it takes from each of them.
-/

import WorkflowBundle.Proofs.FileTree.Location
import WorkflowBundle.Workflow.Parse

namespace WorkflowBundle

theorem StepName.mem_of_first? {paths : List Path} {first : Path}
    (found : StepName.first? paths = some first) : first ∈ paths := by
  have sorted := List.mem_of_mem_head? found
  rw [StepName.sort, List.mem_mergeSort] at sorted
  exact (List.mem_filter.1 sorted).1

/-- The first step of a mode is one of the files in the directory of the mode. -/
theorem Layout.mem_filesIn_of_firstStep? {tree : FileTree} {directory first : Path} {mode : Mode}
    (found : (Layout.detect tree directory).firstStep? mode = some first) :
    first ∈ tree.filesIn (directory.join mode.directory) := by
  have detected : (Layout.detect tree directory).steps? mode =
      Layout.detectMode tree directory mode := by
    cases mode <;> rfl
  rw [Layout.firstStep?, detected, Layout.detectMode] at found
  split at found
  · obtain ⟨steps, chosen, rfl⟩ := Option.map_eq_some_iff.1 found
    obtain ⟨least, first, rfl⟩ := Option.map_eq_some_iff.1 chosen
    exact StepName.mem_of_first? first
  · nomatch found

namespace Workflow

open FileTree (Grounded)
open WorkflowBundle.Path (IsFileName ofNames)

/-- A parsed workflow has the layout of its directory, a definition file in it, and a document that
its settings name or that is found there. -/
structure ParsedFrom (tree : FileTree) (directory : Path) (settings : Yaml.Mapping)
    (configPath named chosen : Path) (workflow : Workflow) : Prop where
  merged : mergedSettings tree directory = .ok (settings, configPath)
  referred : instructionsFor tree settings directory configPath = .ok named
  selected : ∃ text, loadInstructions tree (Layout.detect tree directory) named = .ok (chosen, text)
  instructionsPath : workflow.instructionsPath = tree.canonicalOrSelf chosen
  layout : workflow.layout = Layout.detect tree directory

/-- A parsed workflow keeps the settings of its directory, is named by them or by the directory, and
has the kind of its layout. -/
structure HeadedBy (tree : FileTree) (directory configPath : Path) (workflow : Workflow) :
    Prop where
  merged : mergedSettings tree directory = .ok (workflow.settings, configPath)
  configPath : workflow.configPath = tree.canonicalOrSelf configPath
  name : workflow.name = nameOf workflow.settings directory
  kind : workflow.kind = workflow.layout.kind
  modal : workflow.modal = !workflow.layout.isEmpty

/-- A workflow that is parsed went through all stages, and its fields are made from their
results. -/
theorem exists_stages_of_parse {tree : FileTree} {path : Path} {workflow : Workflow}
    (parsed : parse tree path = .ok workflow) :
    ∃ directory settings configPath named chosen, tree.canonical path = .ok directory ∧
      ParsedFrom tree directory settings configPath named chosen workflow ∧
      HeadedBy tree directory configPath workflow := by
  rw [parse] at parsed
  obtain ⟨directory, located, parsed⟩ := Outcome.bind_eq_ok_iff.1 parsed
  obtain ⟨⟨settings, configPath⟩, merged, parsed⟩ := Outcome.bind_eq_ok_iff.1 parsed
  obtain ⟨named, reference, parsed⟩ := Outcome.bind_eq_ok_iff.1 parsed
  obtain ⟨⟨chosen, text⟩, loaded, parsed⟩ := Outcome.bind_eq_ok_iff.1 parsed
  obtain rfl := Outcome.pure_eq_ok_iff.1 parsed
  exact ⟨directory, settings, configPath, named, chosen, Outcome.mapError_eq_ok_iff.1 located,
    ⟨merged, reference, ⟨text, loaded⟩, rfl, rfl⟩, ⟨merged, rfl, rfl, rfl, rfl⟩⟩

/-- A workflow that is parsed has the layout and the document of its directory. -/
theorem parse_eq_ok {tree : FileTree} {path : Path} {workflow : Workflow}
    (parsed : parse tree path = .ok workflow) :
    ∃ directory settings configPath named chosen, tree.canonical path = .ok directory ∧
      ParsedFrom tree directory settings configPath named chosen workflow := by
  obtain ⟨directory, settings, configPath, named, chosen, located, stages, -⟩ :=
    exists_stages_of_parse parsed
  exact ⟨directory, settings, configPath, named, chosen, located, stages⟩

section

variable {tree : FileTree} {directory configPath named chosen : Path} {settings : Yaml.Mapping}
  {workflow : Workflow}

/-- The file that counts as the configuration is one of two files in the directory. -/
theorem configPath_of_mergedSettings
    (merged : mergedSettings tree directory = .ok (settings, configPath)) :
    ∃ file ∈ [definitionFile, frontMatterFile], configPath = directory.join file ∧
      tree.isFile configPath = true := by
  rw [mergedSettings] at merged
  split at merged
  · rename_i isFile
    obtain ⟨upper, -, same⟩ := Outcome.bind_eq_ok_iff.1 merged
    obtain ⟨-, rfl⟩ := Prod.mk.inj (Outcome.pure_eq_ok_iff.1 same)
    exact ⟨definitionFile, by simp, rfl, isFile⟩
  · split at merged
    · rename_i isFile
      obtain ⟨-, rfl⟩ := Prod.mk.inj (Outcome.pure_eq_ok_iff.1 merged)
      exact ⟨frontMatterFile, by simp, rfl, isFile⟩
    · nomatch merged

theorem isFileName_of_mem {file : String} (member : file ∈ [definitionFile, frontMatterFile]) :
    IsFileName file := by
  have named : ∀ file ∈ [definitionFile, frontMatterFile], IsFileName file := by decide
  exact named file member

/-- The configuration of a parsed workflow is the file that its path leads to. -/
theorem HeadedBy.configPath_eq {file : Path} (headed : HeadedBy tree directory configPath workflow)
    (led : tree.canonical configPath = .ok file) : workflow.configPath = file := by
  rw [headed.configPath]
  simp only [FileTree.canonicalOrSelf, led]

/-- The directory of a parsed workflow is the one that its configuration file leads into. -/
theorem HeadedBy.directory_eq {file parent : Path}
    (headed : HeadedBy tree directory configPath workflow)
    (led : tree.canonical configPath = .ok file) (above : file.parent? = some parent) :
    workflow.directory = parent := by
  rw [Workflow.directory, headed.configPath_eq led, above, Option.getD_some]

/-- The first steps of a parsed workflow are files. -/
theorem ParsedFrom.isFile_of_firstStep?
    (stages : ParsedFrom tree directory settings configPath named chosen workflow) {mode : Mode}
    {first : Path} (starts : workflow.firstStep? mode = some first) : tree.isFile first = true := by
  rw [firstStep?, stages.layout] at starts
  obtain ⟨_, _, -, -, isFile⟩ :=
    FileTree.exists_child_of_mem_filesIn (Layout.mem_filesIn_of_firstStep? starts)
  exact isFile

/-- The conventional instructions are a file in the directory. -/
theorem exists_reference_of_conventionalInstructions (tree : FileTree) (directory : Path) :
    ∃ reference, Escape.ofReference? reference = none ∧
      conventionalInstructions tree directory = directory.join reference := by
  have accepted : ∀ file ∈ instructionFiles, Escape.ofReference? file = none := by decide
  rw [conventionalInstructions]
  cases found : (instructionFiles.map directory.join).find? tree.exists? with
  | none => exact ⟨instructionFiles.headD "", by decide, rfl⟩
  | some path =>
      obtain ⟨file, member, rfl⟩ := List.mem_map.1 (List.mem_of_find?_eq_some found)
      exact ⟨file, accepted file member, rfl⟩

/-- The instructions that the settings name, or that are found, are referred to from the directory
without leaving it. -/
theorem exists_reference_of_instructionsFor
    (referred : instructionsFor tree settings directory configPath = .ok named) :
    ∃ reference, Escape.ofReference? reference = none ∧ named = directory.join reference := by
  rw [instructionsFor] at referred
  split at referred
  · split at referred
    · obtain rfl := Except.ok.inj referred
      exact exists_reference_of_conventionalInstructions tree directory
    · split at referred
      · nomatch referred
      · rename_i accepted
        exact ⟨_, accepted, (Except.ok.inj referred).symm⟩
  · obtain rfl := Except.ok.inj referred
    exact exists_reference_of_conventionalInstructions tree directory

/-- Instructions are loaded from the file that is named, or the first step of a mode stands for
them. -/
theorem loadInstructions_eq_ok {layout : Layout} {text : String}
    (loaded : loadInstructions tree layout named = .ok (chosen, text)) :
    chosen = named ∧ tree.exists? named = true ∨ ∃ mode, layout.firstStep? mode = some chosen := by
  rw [loadInstructions] at loaded
  split at loaded
  · rename_i present
    obtain ⟨_, -, same⟩ := Outcome.map_eq_ok_iff.1 loaded
    exact .inl ⟨(Prod.mk.inj same).1.symm, present⟩
  · split at loaded
    · rename_i step preferred
      obtain ⟨mode, -, first⟩ := List.exists_of_findSome?_eq_some preferred
      exact .inr ⟨mode, (Prod.mk.inj (Except.ok.inj loaded)).1 ▸ first⟩
    · nomatch loaded

/-- The document of a parsed workflow exists. -/
theorem ParsedFrom.exists_location
    (stages : ParsedFrom tree directory settings configPath named chosen workflow) :
    ∃ names, tree.locate chosen = .ok names := by
  obtain ⟨text, loaded⟩ := stages.selected
  rcases loadInstructions_eq_ok loaded with ⟨rfl, present⟩ | ⟨mode, first⟩
  · exact FileTree.exists?_iff.1 present
  · rw [← stages.layout] at first
    obtain ⟨names, _, located, -⟩ :=
      FileTree.exists_location_of_isFile (stages.isFile_of_firstStep? first)
    exact ⟨names, located⟩

/-- The document of a workflow that is parsed from an absolute directory has an absolute path. -/
theorem ParsedFrom.isAbsolute
    (stages : ParsedFrom tree directory settings configPath named chosen workflow)
    (absolute : directory.isAbsolute = true) : chosen.isAbsolute = true := by
  obtain ⟨text, loaded⟩ := stages.selected
  rcases loadInstructions_eq_ok loaded with ⟨rfl, -⟩ | ⟨mode, first⟩
  · obtain ⟨reference, -, rfl⟩ := exists_reference_of_instructionsFor stages.referred
    exact Path.isAbsolute_join absolute reference
  · obtain ⟨_, name, -, rfl, -⟩ :=
      FileTree.exists_child_of_mem_filesIn (Layout.mem_filesIn_of_firstStep? first)
    exact Path.isAbsolute_join (Path.isAbsolute_join absolute mode.directory) name

end

end Workflow

end WorkflowBundle
