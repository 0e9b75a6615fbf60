/-
This file says which parts of a text are its pieces.
-/

import Mathlib.Data.List.TakeWhile
import WorkflowBundle.Text.Search

namespace WorkflowBundle.Text

/-- A piece of a text has no separator, and separators or the ends of the text are around it. -/
def IsPiece (isSeparator : Char → Bool) (text piece : List Char) : Prop :=
  ∃ before after, text = before ++ piece ++ after ∧
    (∀ character ∈ piece, isSeparator character = false) ∧
    (∀ character ∈ before.getLast?, isSeparator character = true) ∧
    ∀ character ∈ after.head?, isSeparator character = true

section

variable {isSeparator : Char → Bool} {text piece : List Char}

/-- A text without a separator has itself as its one piece, and otherwise its first piece ends at its
first separator. -/
theorem plain_or_exists_first (isSeparator : Char → Bool) (text : List Char) :
    (∀ character ∈ text, isSeparator character = false) ∨
      ∃ first separator rest, text = first ++ separator :: rest ∧
        isSeparator separator = true ∧ ∀ character ∈ first, isSeparator character = false := by
  have before : ∀ character ∈ text.takeWhile (!isSeparator ·), isSeparator character = false := by
    intro character member
    simpa using List.mem_takeWhile_imp member
  cases behind : text.dropWhile (!isSeparator ·) with
  | nil =>
      left
      rw [← List.takeWhile_append_dropWhile (p := (!isSeparator ·)) (l := text), behind,
        List.append_nil]
      exact before
  | cons separator rest =>
      right
      refine ⟨_, separator, rest, ?_, ?_, before⟩
      · rw [← behind, List.takeWhile_append_dropWhile]
      · have stops := List.head?_dropWhile_not (!isSeparator ·) text
        simpa [behind] using stops

/-- What is listed as a piece is one. -/
theorem isPiece_of_mem_pieces (member : piece ∈ pieces isSeparator text) :
    IsPiece isSeparator text piece := by
  induction length : text.length using Nat.strong_induction_on generalizing text with
  | _ size inductionHypothesis =>
      subst length
      rcases plain_or_exists_first isSeparator text with
        plain | ⟨first, separator, rest, rfl, separates, plain⟩
      · rw [pieces_of_plain plain, List.mem_singleton] at member
        subst member
        exact ⟨[], [], by simp, plain, nofun, nofun⟩
      · rw [pieces_append separates, pieces_of_plain plain, List.singleton_append] at member
        rcases List.mem_cons.1 member with rfl | later
        · exact ⟨[], separator :: rest, by simp, plain, nofun, by simpa using separates⟩
        · obtain ⟨before, after, rfl, clean, left, right⟩ :=
            inductionHypothesis rest.length (by simp; omega) later rfl
          refine ⟨first ++ separator :: before, after, by simp, clean, ?_, right⟩
          intro character last
          cases before with
          | nil => simp_all
          | cons head tail =>
              apply left
              simpa [List.getLast?_append, List.getLast?_cons_cons] using last

/-- Exactly the pieces of a text are listed. -/
theorem mem_pieces_iff : piece ∈ pieces isSeparator text ↔ IsPiece isSeparator text piece := by
  refine ⟨isPiece_of_mem_pieces, ?_⟩
  rintro ⟨before, after, rfl, clean, left, right⟩
  have ends : piece ∈ pieces isSeparator (piece ++ after) := by
    cases after with
    | nil =>
        rw [List.append_nil, pieces_of_plain clean]
        exact List.mem_cons_self
    | cons separator rest =>
        rw [pieces_append (right separator rfl), pieces_of_plain clean]
        exact List.mem_cons_self
  rcases List.eq_nil_or_concat before with rfl | ⟨front, separator, rfl⟩
  · exact ends
  · have separates : isSeparator separator = true := left separator (by simp)
    have shape : front.concat separator ++ piece ++ after =
        front ++ separator :: (piece ++ after) := by simp
    rw [shape, pieces_append separates]
    exact List.mem_append_right _ ends

end

end WorkflowBundle.Text
