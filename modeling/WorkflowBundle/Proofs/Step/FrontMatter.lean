/-
This file shows what a step keeps of a text whose front matter is missing or malformed.
-/

import WorkflowBundle.Proofs.Step.Walk
import WorkflowBundle.Proofs.Workflow.FrontMatter

namespace WorkflowBundle.Step

open FrontMatter (isLineBreak isMalformed mark split?)

/-- A text without settings is a step that has only a body. -/
theorem ofText_of_empty (path : Path) {text : String} (empty : FrontMatter.settings text = []) :
    ofText path text =
      { path, name := none, description := none, nextStep := none, knowledgeIndex := none,
        body := FrontMatter.body text } := by
  rw [ofText, referenceIn, empty]
  rfl

/-- A file whose front matter is missing or malformed is a step without settings. Its body is the
whole text if and only if no front matter is delimited, since a malformed block is left out of the
body together with its marks and the line breaks behind them. -/
theorem step_without_settings_keeps_text_iff_undelimited {tree : FileTree} {path : Path}
    {text : String} (read : tree.read path = .ok text)
    (malformed : ∀ block rest, split? text = some (block, rest) → isMalformed block = true) :
    load tree path =
        .ok { path, name := none, description := none, nextStep := none, knowledgeIndex := none,
              body := FrontMatter.body text } ∧
      (FrontMatter.body text = text ↔ split? text = none) ∧
      ∀ block rest, split? text = some (block, rest) → FrontMatter.body text = rest ∧
        ∃ breaks, (∀ character ∈ breaks, isLineBreak character = true) ∧
          rest.toList.head?.any isLineBreak = false ∧
          text.toList = mark ++ block.toList ++ mark ++ breaks ++ rest.toList := by
  have empty := FrontMatter.settings_of_malformed malformed
  refine ⟨?_, FrontMatter.body_eq_self_iff text, fun block rest delimited => ⟨?_, ?_⟩⟩
  · -- Without settings there is no reference to a next step, so none can escape.
    have unreferred : ∀ reference, referenceIn text = some reference →
        Escape.ofReference? reference = none := by
      rw [referenceIn, empty]
      nofun
    rw [load_eq_ok_iff]
    exact ⟨text, read, unreferred, (ofText_of_empty path empty).symm⟩
  · rw [FrontMatter.body, delimited]
  · exact FrontMatter.exists_breaks_of_split? delimited

/-- The first file starts with a list between two rules, and the second one has a single rule. -/
def ruledTree : FileTree where
  entries :=
    [(["rules.md"], .file ⟨"---\n- Ask first.\n---\n\nGo.".toUTF8.data⟩),
      (["rule.md"], .file ⟨"---\nGo.".toUTF8.data⟩)]
  workingDirectory := []

/-- Between two rules the list is lost, and behind a single one nothing is. -/
theorem steps_between_rules :
    load ruledTree ⟨"/rules.md"⟩ = .ok ⟨⟨"/rules.md"⟩, none, none, none, none, "Go."⟩ ∧
      load ruledTree ⟨"/rule.md"⟩ = .ok ⟨⟨"/rule.md"⟩, none, none, none, none, "---\nGo."⟩ := by
  have ruled : split? "---\n- Ask first.\n---\n\nGo." = some ("\n- Ask first.\n", "Go.") := by
    decide +kernel
  have single : split? "---\nGo." = none := by decide +kernel
  have malformed : isMalformed "\n- Ask first.\n" = true := by decide +kernel
  constructor
  · obtain ⟨loaded, -, parts⟩ :=
      @step_without_settings_keeps_text_iff_undelimited ruledTree ⟨"/rules.md"⟩
        "---\n- Ask first.\n---\n\nGo." (by decide +kernel) (by
          intro block rest delimited
          obtain ⟨rfl, rfl⟩ := Prod.mk.inj (Option.some.inj (ruled.symm.trans delimited))
          exact malformed)
    rw [loaded, (parts _ _ ruled).1]
  · obtain ⟨loaded, whole, -⟩ :=
      @step_without_settings_keeps_text_iff_undelimited ruledTree ⟨"/rule.md"⟩ "---\nGo."
        (by decide +kernel) (by simp [single])
    rw [loaded, whole.2 single]

/-- A malformed block is not always kept as a part of the body. -/
theorem malformed_block_is_lost :
    ¬ ∀ (tree : FileTree) (path : Path) (text block rest : String), tree.read path = .ok text →
      split? text = some (block, rest) → isMalformed block = true →
      ∃ step, load tree path = .ok step ∧ step.body = text := by
  intro kept
  obtain ⟨step, loaded, whole⟩ := kept ruledTree ⟨"/rules.md"⟩ "---\n- Ask first.\n---\n\nGo."
    "\n- Ask first.\n" "Go." (by decide +kernel) (by decide +kernel) (by decide +kernel)
  have shown : (load ruledTree ⟨"/rules.md"⟩).toOption.map Step.body = some "Go." := by
    decide +kernel
  rw [loaded] at shown
  exact absurd (whole.symm.trans (Option.some.inj shown)) (by decide)

end WorkflowBundle.Step
