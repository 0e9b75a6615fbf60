/-
This file says what replacing a mark makes of a text.
-/

import WorkflowBundle.Text.Search

namespace WorkflowBundle.Text

section

variable {mark replacement : List Char}

/-- A text without the mark stays as it is. -/
theorem replaceFrom_of_not_infix {text : List Char} (absent : ¬ mark <:+: text) :
    replaceFrom mark replacement 0 text = text := by
  induction text with
  | nil => rfl
  | cons character rest inductionHypothesis =>
      rw [List.infix_cons_iff, not_or, ← List.isPrefixOf_iff_prefix] at absent
      rw [replaceFrom, if_neg absent.1, inductionHypothesis absent.2]

/-- A character that does not start a mark stays before the rest. -/
theorem replaceFrom_cons {character : Char} {rest : List Char}
    (apart : ¬ mark <+: character :: rest) :
    replaceFrom mark replacement 0 (character :: rest) =
      character :: replaceFrom mark replacement 0 rest := by
  rw [← List.isPrefixOf_iff_prefix] at apart
  rw [replaceFrom, if_neg apart]

/-- Characters that are skipped are dropped. -/
theorem replaceFrom_drop (pending : Nat) (text : List Char) :
    replaceFrom mark replacement pending text =
      replaceFrom mark replacement 0 (text.drop pending) := by
  induction text generalizing pending with
  | nil => cases pending <;> rfl
  | cons character rest inductionHypothesis =>
      cases pending with
      | zero => rfl
      | succ pending => exact inductionHypothesis pending

/-- A mark at the start is replaced, and replacing goes on behind it. -/
theorem replaceFrom_mark_append (written : mark ≠ []) (rest : List Char) :
    replaceFrom mark replacement 0 (mark ++ rest) =
      replacement ++ replaceFrom mark replacement 0 rest := by
  obtain ⟨first, others, rfl⟩ := List.exists_cons_of_ne_nil written
  have starts : (first :: others).isPrefixOf (first :: (others ++ rest)) = true :=
    List.isPrefixOf_iff_prefix.2 (List.prefix_append (first :: others) rest)
  rw [List.cons_append, replaceFrom, if_pos starts, replaceFrom_drop]
  simp

end

theorem replace_of_not_infix {mark text : String} (replacement : String)
    (absent : ¬ mark.toList <:+: text.toList) : replace mark replacement text = text := by
  rw [replace, replaceFrom_of_not_infix absent, String.ofList_toList]

end WorkflowBundle.Text
