/-
This file says what trimming the end of a text leaves of it.
-/

import Mathlib.Data.List.TakeWhile
import WorkflowBundle.Text.Blank

namespace WorkflowBundle.Text

/-- Trimming drops a blank ending. -/
theorem trimEnd_append_of_blank (text : List Char) {ending : List Char}
    (blank : ∀ character ∈ ending, isBlank character = true) :
    trimEnd (text ++ ending) = trimEnd text := by
  have reversed : ∀ character ∈ ending.reverse, isBlank character = true :=
    fun character member => blank character (List.mem_reverse.1 member)
  rw [trimEnd, List.reverse_append, List.dropWhile_append_of_pos reversed]
  rfl

/-- A text that does not end with a blank is not trimmed. -/
theorem trimEnd_eq_self {text : List Char}
    (solid : ∀ character ∈ text.getLast?, isBlank character = false) : trimEnd text = text := by
  rcases List.eq_nil_or_concat text with rfl | ⟨front, last, rfl⟩
  · rfl
  · have kept : isBlank last = false := solid last (by simp)
    simp [trimEnd, kept]

/-- A text is its trimmed end and blanks behind it. -/
theorem exists_blanks_of_trimEnd (text : List Char) :
    ∃ blanks, text = trimEnd text ++ blanks ∧ ∀ character ∈ blanks, isBlank character = true := by
  refine ⟨(text.reverse.takeWhile isBlank).reverse, ?_, ?_⟩
  · rw [trimEnd, ← List.reverse_append, List.takeWhile_append_dropWhile, List.reverse_reverse]
  · intro character member
    exact List.mem_takeWhile_imp (List.mem_reverse.1 member)

/-- A beginning of a text that does not end with a blank survives trimming. -/
theorem prefix_trimEnd {part text : List Char} (starts : part <+: text)
    (solid : ∀ character ∈ part.getLast?, isBlank character = false) : part <+: trimEnd text := by
  obtain ⟨blanks, split, blank⟩ := exists_blanks_of_trimEnd text
  rcases Nat.le_total part.length (trimEnd text).length with short | long
  · exact List.prefix_of_prefix_length_le starts (trimEnd_isPrefix text) short
  · -- What such a beginning has beyond the trimmed text would be blank.
    obtain ⟨more, rest⟩ := List.prefix_of_prefix_length_le (trimEnd_isPrefix text) starts long
    rw [split, ← rest, List.prefix_append_right_inj] at starts
    calc part = trimEnd (trimEnd text ++ more) := by rw [rest, trimEnd_eq_self solid]
      _ = trimEnd (trimEnd text) :=
        trimEnd_append_of_blank _ fun character member => blank character (starts.subset member)
      _ <+: trimEnd text := trimEnd_isPrefix _

/-- Trimming keeps the order of beginnings. -/
theorem trimEnd_prefix_of_prefix {first second : List Char} (starts : first <+: second) :
    trimEnd first <+: trimEnd second :=
  prefix_trimEnd ((trimEnd_isPrefix first).trans starts) (isBlank_getLast?_trimEnd first)

/-- Trimming drops an ending exactly when it is blank. -/
theorem trimEnd_append_eq_iff {text ending : List Char} :
    trimEnd (text ++ ending) = trimEnd text ↔ ∀ character ∈ ending, isBlank character = true := by
  refine ⟨fun same character member => ?_, trimEnd_append_of_blank text⟩
  obtain ⟨dropped, split, -⟩ := exists_blanks_of_trimEnd text
  obtain ⟨blanks, whole, blank⟩ := exists_blanks_of_trimEnd (text ++ ending)
  rw [same] at whole
  have joined : dropped ++ ending = blanks := by
    rw [← List.append_right_inj (trimEnd text), ← List.append_assoc, ← split, whole]
  exact blank character (joined ▸ List.mem_append_right dropped member)

theorem isEmpty_trim (text : String) : (trim text).isEmpty = isBlankText text := by
  have none : trimEnd (trimStart text.toList) = [] ↔
      ∀ character ∈ trimStart text.toList, isBlank character = true :=
    @trimEnd_append_eq_iff [] (trimStart text.toList)
  have blank : (∀ character ∈ trimStart text.toList, isBlank character = true) ↔
      ∀ character ∈ text.toList, isBlank character = true := by
    refine ⟨fun remaining character member => ?_, fun all character member =>
      all character ((List.dropWhile_suffix _).subset member)⟩
    rw [← List.takeWhile_append_dropWhile (p := isBlank) (l := text.toList)] at member
    rcases List.mem_append.1 member with front | behind
    · exact List.mem_takeWhile_imp front
    · exact remaining character behind
  rw [Bool.eq_iff_iff, isBlankText, List.all_eq_true, ← blank, ← none, trim]
  simp

end WorkflowBundle.Text
