/-
This file says how the text of a compiled chain is made of the sections of its steps.
-/

import WorkflowBundle.Proofs.Variable.Division
import WorkflowBundle.Step.Chain

namespace WorkflowBundle.Step

open Variable (Table)

/-- The section of a step expands when every reference in it has an expanded value. -/
def Expands (bindings : Table) (step : Step) : Prop :=
  ∃ result, Variable.expandText bindings (sectionText step) = .ok result

/-- The separator of sections is not empty, and no reference holds its characters. -/
theorem separator_isOutside : separator ≠ "" ∧
    ∀ character ∈ separator.toList, Variable.standsInReference character = false := by
  have apart : separator.toList.any Variable.standsInReference = false := by decide
  refine ⟨by decide, fun character member => ?_⟩
  simpa using List.any_eq_false.1 apart character member

/-- A chain that builds compiles. Its references are those of its sections, and each section is filled
on its own: with the expanded values if all sections of the chain expand, and with the values as they
are if one of them does not. -/
theorem chain_fills_sections_alike {tree : FileTree} {first : Path} {steps : List Step}
    (chained : chain tree first = .ok steps) (root : Path) (bindings : Table) :
    ∃ text indexes,
      (∀ knowledge, compileChain tree root bindings knowledge first =
        .ok (appendKnowledge text knowledge, indexes)) ∧
      Variable.segments (concatenate steps) =
        (separator.toList.map Variable.Segment.literal).intercalate
          (steps.map fun step => Variable.segments (sectionText step)) ∧
      ((∀ step ∈ steps, Expands bindings step) →
        text = Text.join separator
          (steps.map fun step => Variable.substitute bindings (sectionText step))) ∧
      ((∃ step ∈ steps, ¬ Expands bindings step) →
        text = Text.join separator
          (steps.map fun step => Variable.insertValues bindings (sectionText step))) := by
  obtain ⟨written, outside⟩ := separator_isOutside
  refine ⟨_, _, fun knowledge => by rw [compileChain, chained]; rfl, ?_, ?_, ?_⟩
  · rw [concatenate, Variable.segments_join written outside, List.map_map]
    rfl
  · intro expands
    rw [concatenate, Variable.substitute_join_of_expands written outside, List.map_map]
    · rfl
    · exact List.forall_mem_map.2 expands
  · rintro ⟨step, member, stuck⟩
    rw [concatenate, Variable.substitute_join_of_fails written outside, List.map_map]
    · rfl
    · exact ⟨_, List.mem_map_of_mem member, not_exists.1 stuck⟩

/-- In this tree the first of two steps refers to a circle, and the second one to a directory. -/
def circledTree : FileTree where
  entries :=
    [(["p"], .directory),
      (["p", "s.md"], .file ⟨"---\nnextStepFile: t.md\n---\n\x7bloop\x7d".toUTF8.data⟩),
      (["p", "t.md"], .file ⟨"\x7bout\x7d".toUTF8.data⟩)]
  workingDirectory := []

/-- The circle has one member, and the directory is named below the root. -/
def circledBindings : Table :=
  .ofList [("loop", .unresolved "\x7bloop\x7d"), ("out", .unresolved "\x7broot\x7d/out"),
    ("root", .text "/p")]

theorem sections_circledTree : ∃ steps, chain circledTree ⟨"/p/s.md"⟩ = .ok steps ∧
    steps.map sectionText = ["<!-- STEP: s -->\n\x7bloop\x7d", "<!-- STEP: t -->\n\x7bout\x7d"] := by
  have shown : (chain circledTree ⟨"/p/s.md"⟩).toOption.map (·.map sectionText) =
      some ["<!-- STEP: s -->\n\x7bloop\x7d", "<!-- STEP: t -->\n\x7bout\x7d"] := by
    decide +kernel
  exact Outcome.exists_of_map_toOption shown

/-- The directory is inserted as it is, since the first section does not expand. -/
theorem directory_is_filled_beside_circle :
    ∃ indexes, compileChain circledTree ⟨"/p"⟩ circledBindings none ⟨"/p/s.md"⟩ =
      .ok ("<!-- STEP: s -->\n\x7bloop\x7d\n\n<!-- STEP: t -->\n\x7broot\x7d/out", indexes) := by
  obtain ⟨steps, chained, sections⟩ := sections_circledTree
  obtain ⟨text, indexes, compiled, -, -, mixed⟩ :=
    chain_fills_sections_alike chained ⟨"/p"⟩ circledBindings
  have stuck : (Variable.expandText circledBindings "<!-- STEP: s -->\n\x7bloop\x7d").toOption =
      none := by
    decide +kernel
  obtain ⟨step, others, rfl, same, -⟩ := List.map_eq_cons_iff.1 sections
  refine ⟨indexes, (compiled none).trans ?_⟩
  have filled := mixed ⟨step, List.mem_cons_self, ?_⟩
  · have inserted : (step :: others).map (Variable.insertValues circledBindings ∘ sectionText) =
        ["<!-- STEP: s -->\n\x7bloop\x7d", "<!-- STEP: t -->\n\x7broot\x7d/out"] := by
      rw [← List.map_map, sections]
      decide +kernel
    rw [filled, ← Function.comp_def, inserted]
    rfl
  · rintro ⟨result, done⟩
    rw [same] at done
    rw [done] at stuck
    nomatch stuck

/-- The sections of a chain are not substituted one by one. -/
theorem sections_are_not_substituted_apart :
    ¬ ∀ (tree : FileTree) (root first : Path) (bindings : Table) (steps : List Step) (text : String)
        (indexes : List Path), chain tree first = .ok steps →
      compileChain tree root bindings none first = .ok (text, indexes) →
      text = Text.join separator
        (steps.map fun step => Variable.substitute bindings (sectionText step)) := by
  intro apart
  obtain ⟨steps, chained, sections⟩ := sections_circledTree
  have shown : (compileChain circledTree ⟨"/p"⟩ circledBindings none ⟨"/p/s.md"⟩).toOption.map
      Prod.fst = some "<!-- STEP: s -->\n\x7bloop\x7d\n\n<!-- STEP: t -->\n\x7broot\x7d/out" := by
    decide +kernel
  obtain ⟨⟨text, indexes⟩, compiled, rfl⟩ := Outcome.exists_of_map_toOption shown
  have same := apart _ _ _ _ _ _ _ chained compiled
  rw [← Function.comp_def, ← List.map_map, sections] at same
  exact absurd same (by decide +kernel)

end WorkflowBundle.Step
