/-
This file shows when a parsed workflow keeps the directory it is parsed from.
-/

import WorkflowBundle.Proofs.Workflow.Parsing

namespace WorkflowBundle.Workflow

open FileTree (Grounded LinkAt)
open WorkflowBundle.Path (ofNames)

/-- A name in a directory is linked elsewhere when it is a link and its canonical path is not
directly in the directory. -/
def LinkedElsewhere (tree : FileTree) (location : List String) (name : String) : Prop :=
  (∃ target, LinkAt tree location name target) ∧
    ∃ file, tree.canonical ((ofNames location).join name) = .ok file ∧
      file.parent? ≠ some (ofNames location)

/-- A workflow that is headed by a directory has this directory, unless its configuration file is a
link that leads to another one. -/
theorem HeadedBy.directory_eq_iff {tree : FileTree} {location : List String} {configPath : Path}
    {workflow : Workflow} (grounded : Grounded tree location)
    (headed : HeadedBy tree (ofNames location) configPath workflow) :
    ∃ name file, name ∈ [definitionFile, frontMatterFile] ∧
      configPath = (ofNames location).join name ∧ tree.canonical configPath = .ok file ∧
      file.parent? = some workflow.directory ∧
      (workflow.directory = ofNames location ↔ ¬ LinkedElsewhere tree location name) := by
  obtain ⟨name, member, rfl, isFile⟩ := configPath_of_mergedSettings headed.merged
  have absolute := Path.isAbsolute_join (Path.isAbsolute_ofNames location) name
  obtain ⟨names, led, resolved, above⟩ := FileTree.exists_parent_of_isFile absolute isFile
  have kept := headed.directory_eq resolved above
  refine ⟨name, ofNames names, member, rfl, resolved, kept ▸ above, ?_⟩
  constructor
  · rintro here ⟨-, file, other, elsewhere⟩
    obtain rfl := Except.ok.inj (resolved.symm.trans other)
    exact elsewhere (above.trans (congrArg some (kept.symm.trans here)))
  · intro stays
    -- A file that is no link is canonical as it is, and stands directly in its directory.
    rcases FileTree.eq_concat_or_link_of_locate_join grounded (isFileName_of_mem member) led
      with rfl | link
    · rw [kept, List.dropLast_concat]
    · by_contra elsewhere
      refine stays ⟨link, ofNames names, resolved, fun inside => elsewhere ?_⟩
      exact kept.trans (Option.some.inj (above.symm.trans inside))

/-- The directory of a parsed workflow is the one it is parsed from, unless its configuration file is
a link that leads to another directory. In any case it is the directory of the file that the
configuration is read from. -/
theorem directory_is_parsed_iff_not_linked_elsewhere {tree : FileTree} {path directory : Path}
    {workflow : Workflow} (working : Grounded tree tree.workingDirectory)
    (located : tree.canonical path = .ok directory) (parsed : parse tree path = .ok workflow) :
    ∃ location name, directory = ofNames location ∧ Grounded tree location ∧
      name ∈ [definitionFile, frontMatterFile] ∧
      mergedSettings tree directory = .ok (workflow.settings, directory.join name) ∧
      (∃ file, tree.canonical (directory.join name) = .ok file ∧ workflow.configPath = file ∧
        file.parent? = some workflow.directory) ∧
      (workflow.directory = directory ↔ ¬ LinkedElsewhere tree location name) := by
  obtain ⟨_, settings, configPath, named, chosen, same, -, headed⟩ := exists_stages_of_parse parsed
  obtain rfl := Except.ok.inj (same.symm.trans located)
  obtain ⟨location, rfl, grounded, -⟩ := FileTree.exists_names_of_canonical working located
  obtain ⟨name, file, member, rfl, led, above, stays⟩ := headed.directory_eq_iff grounded
  exact ⟨location, name, rfl, grounded, member, headed.merged,
    ⟨file, led, headed.configPath_eq led, above⟩, stays⟩

/-- The configuration files of these workflows are links: one leads to a folder that workflows share,
the other stays in its directory. -/
def linkedTree : FileTree where
  entries :=
    [(["shared"], .directory), (["shared", "demo.yaml"], .file ⟨"name: demo".toUTF8.data⟩),
      (["w"], .directory), (["w", "workflow.yaml"], .link ⟨"../shared/demo.yaml"⟩),
      (["w", "instructions.md"], .file ⟨"Go.".toUTF8.data⟩),
      (["v"], .directory), (["v", "workflow.yaml"], .link ⟨"own.yaml"⟩),
      (["v", "own.yaml"], .file ⟨"name: own".toUTF8.data⟩),
      (["v", "instructions.md"], .file ⟨"Go.".toUTF8.data⟩)]
  workingDirectory := []

/-- Both workflows are parsed, and their configuration files are links. -/
theorem parse_linkedTree (folder name : String)
    (member : (folder, name) ∈ [("/w", "demo"), ("/v", "own")]) :
    (∃ workflow, parse linkedTree ⟨folder⟩ = .ok workflow ∧ workflow.name = name) ∧
      linkedTree.canonical ⟨folder⟩ = .ok ⟨folder⟩ ∧
      ∀ settings configPath, mergedSettings linkedTree ⟨folder⟩ = .ok (settings, configPath) →
        configPath = ⟨folder ++ "/workflow.yaml"⟩ := by
  have named : ∀ entry ∈ [("/w", "demo"), ("/v", "own")],
      (parse linkedTree ⟨entry.1⟩).toOption.map Workflow.name = some entry.2 ∧
        linkedTree.canonical ⟨entry.1⟩ = .ok ⟨entry.1⟩ ∧
        (mergedSettings linkedTree ⟨entry.1⟩).toOption.map Prod.snd =
          some ⟨entry.1 ++ "/workflow.yaml"⟩ := by
    decide +kernel
  obtain ⟨parsed, located, configured⟩ := named _ member
  refine ⟨Outcome.exists_of_map_toOption parsed, located, fun settings configPath merged => ?_⟩
  rw [merged] at configured
  exact Option.some.inj configured

/-- The shared configuration moves the directory, and the own one does not. -/
theorem directory_of_linked_configuration :
    (∃ workflow, parse linkedTree ⟨"/w"⟩ = .ok workflow ∧ workflow.directory = ⟨"/shared"⟩) ∧
      ∃ workflow, parse linkedTree ⟨"/v"⟩ = .ok workflow ∧ workflow.directory = ⟨"/v"⟩ := by
  constructor
  · obtain ⟨⟨workflow, parsed, -⟩, located, configured⟩ := parse_linkedTree "/w" "demo" (by simp)
    obtain ⟨location, name, -, -, -, merged, ⟨file, led, -, above⟩, -⟩ :=
      directory_is_parsed_iff_not_linked_elsewhere .root located parsed
    have shared : linkedTree.canonical ⟨"/w/workflow.yaml"⟩ = .ok ⟨"/shared/demo.yaml"⟩ := by
      decide +kernel
    rw [configured _ _ merged] at led
    obtain rfl := Except.ok.inj (shared.symm.trans led)
    exact ⟨workflow, parsed, Option.some.inj (above.symm.trans (by decide +kernel))⟩
  · obtain ⟨⟨workflow, parsed, -⟩, located, configured⟩ := parse_linkedTree "/v" "own" (by simp)
    obtain ⟨location, name, here, -, -, merged, -, stays⟩ :=
      directory_is_parsed_iff_not_linked_elsewhere .root located parsed
    refine ⟨workflow, parsed, stays.2 ?_⟩
    rintro ⟨-, file, led, elsewhere⟩
    have own : linkedTree.canonical ⟨"/v/workflow.yaml"⟩ = .ok ⟨"/v/own.yaml"⟩ := by
      decide +kernel
    rw [← here, configured _ _ merged] at led
    obtain rfl := Except.ok.inj (own.symm.trans led)
    rw [← here] at elsewhere
    exact elsewhere (by decide +kernel)

/-- The directory of a parsed workflow is not always the one it is parsed from. -/
theorem directory_of_parsed_workflow_is_lost :
    ¬ ∀ (tree : FileTree) (path directory : Path) (workflow : Workflow),
      Grounded tree tree.workingDirectory → tree.canonical path = .ok directory →
      parse tree path = .ok workflow → workflow.directory = directory := by
  intro kept
  have shown : (parse linkedTree ⟨"/w"⟩).toOption.map Workflow.directory = some ⟨"/shared"⟩ := by
    decide +kernel
  obtain ⟨workflow, parsed, moved⟩ := Outcome.exists_of_map_toOption shown
  have same := kept linkedTree ⟨"/w"⟩ ⟨"/w"⟩ workflow .root (by decide +kernel) parsed
  exact absurd (moved.symm.trans same) (by decide)

end WorkflowBundle.Workflow
