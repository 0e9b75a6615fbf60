/-
This file says where a text is cut: around the first occurrence of a mark, and between lines.
-/

import WorkflowBundle.Text.Search

namespace WorkflowBundle.Text

/-- A text with all of a mark but its last character is a beginning of the text with the mark. -/
theorem dropLast_mark_starts (before mark after : List Char) :
    before ++ mark.dropLast <+: before ++ mark ++ after := by
  rw [List.append_assoc, List.prefix_append_right_inj]
  have shorter : mark.dropLast <+: mark := List.dropLast_prefix mark
  exact shorter.trans (List.prefix_append mark after)

section

variable {mark text before after : List Char}

/-- Before a cut the mark neither occurs nor starts. -/
theorem not_infix_of_cut? (written : mark ≠ []) (cut : cut? mark text = some (before, after)) :
    ¬ mark <:+: before ++ mark.dropLast := by
  induction text generalizing before with
  | nil => simp [cut?, written] at cut
  | cons character rest inductionHypothesis =>
      rw [cut?] at cut
      split at cut
      · obtain ⟨rfl, -⟩ := Prod.mk.inj (Option.some.inj cut)
        intro inside
        have long : 0 < mark.length := List.length_pos_iff.2 written
        have short := inside.length_le
        rw [List.nil_append, List.length_dropLast] at short
        omega
      · rename_i apart
        obtain ⟨⟨inner, outer⟩, cutRest, same⟩ := Option.map_eq_some_iff.1 cut
        obtain ⟨rfl, rfl⟩ := Prod.mk.inj same
        rw [List.cons_append, List.infix_cons_iff, not_or]
        refine ⟨fun starts => apart (List.isPrefixOf_iff_prefix.2 ?_),
          inductionHypothesis cutRest⟩
        rw [eq_append_of_cut? cutRest]
        exact starts.trans (dropLast_mark_starts (character :: inner) mark outer)

/-- A text is cut at a mark that neither occurs nor starts before. -/
theorem cut?_append (written : mark ≠ []) (fresh : ¬ mark <:+: before ++ mark.dropLast)
    (after : List Char) : cut? mark (before ++ mark ++ after) = some (before, after) := by
  induction before with
  | nil =>
      obtain ⟨head, tail, rfl⟩ := List.exists_cons_of_ne_nil written
      simp [cut?]
  | cons character inner inductionHypothesis =>
      rw [List.cons_append, List.infix_cons_iff, not_or] at fresh
      have apart : mark.isPrefixOf (character :: (inner ++ mark ++ after)) = false := by
        rw [Bool.eq_false_iff, ne_eq, List.isPrefixOf_iff_prefix]
        intro starts
        -- The mark and the text without its last character are beginnings of the whole text.
        refine fresh.1 (List.prefix_of_prefix_length_le starts
          (dropLast_mark_starts (character :: inner) mark after) ?_)
        simp only [List.length_cons, List.length_append, List.length_dropLast]
        omega
      rw [List.cons_append, List.cons_append, cut?, apart, inductionHypothesis fresh.2]
      rfl

/-- A text is cut at the first occurrence of a mark. -/
theorem cut?_eq_some_iff (written : mark ≠ []) :
    cut? mark text = some (before, after) ↔
      text = before ++ mark ++ after ∧ ¬ mark <:+: before ++ mark.dropLast := by
  constructor
  · intro cut
    exact ⟨eq_append_of_cut? cut, not_infix_of_cut? written cut⟩
  · rintro ⟨rfl, fresh⟩
    exact cut?_append written fresh after

/-- A mark without the separator occurs in a text if and only if it does on one side of the
separator. -/
theorem infix_append_cons_iff {first second : List Char} {separator : Char}
    (apart : separator ∉ mark) :
    mark <:+: first ++ separator :: second ↔ mark <:+: first ∨ mark <:+: second := by
  have starts {part : List Char} (inside : part ⊆ mark) (shown : part <+: separator :: second) :
      part = [] := by
    cases part with
    | nil => rfl
    | cons head tail =>
        obtain rfl := (List.cons_prefix_cons.1 shown).1
        exact absurd (inside List.mem_cons_self) apart
  rw [List.infix_append_iff, List.infix_cons_iff]
  constructor
  · rintro (left | (here | right) | ⟨front, back, rfl, ends, shown⟩)
    · exact .inl left
    · exact .inl (starts (List.Subset.refl mark) here ▸ List.nil_infix)
    · exact .inr right
    · obtain rfl := starts (List.subset_append_right front back) shown
      exact .inl ((List.append_nil front).symm ▸ ends.isInfix)
  · rintro (left | right)
    · exact .inl left
    · exact .inr (.inl (.inr right))

end

/-- The text of some lines has a line feed behind each of them. -/
def ofLines (lines : List (List Char)) : List Char :=
  lines.flatMap (· ++ ['\n'])

theorem ofLines_cons (line : List Char) (lines : List (List Char)) :
    ofLines (line :: lines) = line ++ '\n' :: ofLines lines := by
  simp [ofLines]

theorem ofLines_append (first second : List (List Char)) :
    ofLines (first ++ second) = ofLines first ++ ofLines second :=
  List.flatMap_append

/-- A mark that fits on a line occurs in some lines and a text behind them if and only if it does on
one of the lines or in that text. -/
theorem infix_ofLines_append_iff {mark : List Char} (single : '\n' ∉ mark)
    (lines : List (List Char)) (rest : List Char) :
    mark <:+: ofLines lines ++ rest ↔ (∃ line ∈ lines, mark <:+: line) ∨ mark <:+: rest := by
  induction lines with
  | nil => simp [ofLines]
  | cons line lines inductionHypothesis =>
      rw [ofLines_cons, List.append_assoc, List.cons_append, infix_append_cons_iff single,
        inductionHypothesis]
      simp only [List.mem_cons, exists_eq_or_imp, or_assoc]

end WorkflowBundle.Text
