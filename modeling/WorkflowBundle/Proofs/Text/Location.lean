/-
This file shows that the offsets of a text and the lines and columns in it correspond to one another.
-/

import Mathlib.Data.List.Induction
import WorkflowBundle.Proofs.Text.Bytes
import WorkflowBundle.Text.Location

namespace WorkflowBundle.Location

open WorkflowBundle.Text (IsColumn byteSize bytes lines ofLines)

/-- A location comes before another one when it is on an earlier line, or further to the left on the
same line. -/
def Before (first second : Location) : Prop :=
  first.line < second.line ∨ first.line = second.line ∧ first.column < second.column

/-- A location is in a text when it is on one of its lines or directly behind it. -/
structure IsIn (text : String) (location : Location) : Prop where
  line : 1 ≤ location.line
  column : 1 ≤ location.column
  fits : ∃ characters, (lines text.toList)[location.line - 1]? = some characters ∧
    location.column ≤ byteSize characters + 1

/-- A line starts behind the lines before it and their line feeds. -/
def lineStart (text : String) (line : Nat) : Nat :=
  byteSize (ofLines ((lines text.toList).take (line - 1)))

/-- The offset of a location is the start of its line and its column less one. -/
def offsetIn (text : String) (location : Location) : Nat :=
  lineStart text location.line + location.column - 1

theorem Before.trans {first second third : Location} (earlier : first.Before second)
    (later : second.Before third) : first.Before third := by
  rw [Before] at *
  omega

theorem Before.ne {first second : Location} (earlier : first.Before second) : first ≠ second := by
  rintro rfl
  rw [Before] at earlier
  omega

section

variable {first second : List UInt8}

/-- Behind a line feed the next line starts. -/
theorem afterBytes_concat_feed (first : List UInt8) :
    afterBytes (first ++ [10]) = ⟨(afterBytes first).line + 1, 1⟩ := by
  simp [afterBytes]

/-- Bytes without a line feed lead to the right. -/
theorem afterBytes_append_plain (plain : 10 ∉ second) :
    afterBytes (first ++ second) =
      ⟨(afterBytes first).line, (afterBytes first).column + second.length⟩ := by
  have others : ∀ byte ∈ second.reverse, (byte != 10) = true := by
    intro byte member
    have other : byte ≠ 10 := fun feed => plain (feed ▸ List.mem_reverse.1 member)
    simpa using other
  rw [afterBytes, List.count_append, List.count_eq_zero.2 plain, List.reverse_append,
    List.takeWhile_append_of_pos others, List.length_append, List.length_reverse, Nat.add_zero,
    Nat.add_comm second.length, Nat.add_right_comm]
  rfl

/-- Every byte leads to a later location. -/
theorem before_afterBytes_concat (first : List UInt8) (byte : UInt8) :
    (afterBytes first).Before (afterBytes (first ++ [byte])) := by
  by_cases feed : byte = 10
  · rw [feed, afterBytes_concat_feed]
    exact .inl (Nat.lt_succ_self _)
  · rw [afterBytes_append_plain (by simpa using Ne.symm feed)]
    exact .inr ⟨rfl, Nat.lt_succ_self _⟩

/-- More bytes lead to a later location. -/
theorem before_afterBytes_append (more : second ≠ []) :
    (afterBytes first).Before (afterBytes (first ++ second)) := by
  induction second using List.reverseRecOn with
  | nil => exact absurd rfl more
  | append_singleton second byte inductionHypothesis =>
      rw [← List.append_assoc]
      have step := before_afterBytes_concat (first ++ second) byte
      by_cases none : second = []
      · subst none
        rwa [List.append_nil] at step ⊢
      · exact (inductionHypothesis none).trans step

end

/-- The bytes of some lines and their line feeds lead to the start of the next line. -/
theorem afterBytes_ofLines {parts : List (List Char)} (single : ∀ line ∈ parts, '\n' ∉ line) :
    afterBytes (bytes (ofLines parts)) = ⟨parts.length + 1, 1⟩ := by
  induction parts using List.reverseRecOn with
  | nil => rfl
  | append_singleton parts line inductionHypothesis =>
      obtain ⟨earlier, last⟩ := List.forall_mem_append.1 single
      have plain := Text.feed_not_mem_bytes (last line List.mem_cons_self)
      have written : bytes (ofLines (parts ++ [line])) =
          bytes (ofLines parts) ++ bytes line ++ [10] := by
        rw [Text.ofLines_append, Text.ofLines_cons, Text.bytes_append, Text.bytes_append,
          List.append_assoc]
        rfl
      rw [written, afterBytes_concat_feed, afterBytes_append_plain plain,
        inductionHypothesis earlier, List.length_append]
      rfl

section

variable {text : String}

/-- The offset of a column is located on its line, and lines and columns are counted from one. -/
theorem ofOffset_of_isColumn {before : List (List Char)} {line : List Char} {column : Nat}
    (isColumn : IsColumn text.toList before line column) :
    ofOffset text (byteSize (ofLines before) + column) = ⟨before.length + 1, column + 1⟩ := by
  obtain ⟨earlier, here⟩ := isColumn.feed_not_mem
  have plain : 10 ∉ (bytes line).take column := fun member =>
    Text.feed_not_mem_bytes here (List.mem_of_mem_take member)
  have taken : ((bytes line).take column).length = column := by
    rw [List.length_take, Text.length_bytes, Nat.min_eq_left isColumn.fits]
  rw [ofOffset, Text.toList_toUTF8, isColumn.take_bytes, afterBytes_append_plain plain,
    afterBytes_ofLines earlier, taken, Nat.add_comm 1]

/-- The locations in a text are those of its columns. -/
theorem isIn_iff {location : Location} :
    location.IsIn text ↔ ∃ before line column, IsColumn text.toList before line column ∧
      location = ⟨before.length + 1, column + 1⟩ := by
  constructor
  · rintro ⟨positive, written, line, found, fits⟩
    obtain ⟨inside, rfl⟩ := List.getElem?_eq_some_iff.1 found
    refine ⟨(lines text.toList).take (location.line - 1), _, location.column - 1,
      ⟨⟨(lines text.toList).drop (location.line - 1 + 1), ?_⟩, Nat.sub_le_of_le_add fits⟩, ?_⟩
    · rw [List.getElem_cons_drop, List.take_append_drop]
    · rw [List.length_take_of_le (Nat.le_of_lt inside), Nat.sub_add_cancel positive,
        Nat.sub_add_cancel written]
  · rintro ⟨before, line, column, ⟨⟨after, divided⟩, fits⟩, rfl⟩
    refine ⟨Nat.le_add_left 1 _, Nat.le_add_left 1 _, line, ?_, Nat.succ_le_succ fits⟩
    rw [divided, Nat.add_sub_cancel, List.getElem?_append_right (Nat.le_refl _), Nat.sub_self]
    rfl

/-- The offset of the location of a column is that of the column. -/
theorem offsetIn_of_isColumn {before : List (List Char)} {line : List Char} {column : Nat}
    (isColumn : IsColumn text.toList before line column) :
    offsetIn text ⟨before.length + 1, column + 1⟩ = byteSize (ofLines before) + column := by
  obtain ⟨after, divided⟩ := isColumn.divided
  rw [offsetIn, lineStart, divided, Nat.add_sub_cancel, List.take_left]
  rfl

/-- A later offset of a text has a later location. -/
theorem before_ofOffset {first second : Nat} (ordered : first < second)
    (inside : second ≤ byteSize text.toList) :
    (ofOffset text first).Before (ofOffset text second) := by
  have divided : text.toUTF8.toList.take second =
      text.toUTF8.toList.take first ++ (text.toUTF8.toList.drop first).take (second - first) := by
    rw [← List.take_add, Nat.add_sub_cancel' (Nat.le_of_lt ordered)]
  -- The bytes before the first offset are the first ones before the second.
  rw [ofOffset, ofOffset, divided]
  apply before_afterBytes_append
  rw [← List.length_pos_iff, List.length_take, List.length_drop, Text.toList_toUTF8,
    Text.length_bytes]
  omega

/-- Two offsets inside of a text have the same location only if they are the same. -/
theorem ofOffset_eq_iff {first second : Nat} (ordered : first ≤ second)
    (inside : second ≤ byteSize text.toList) :
    ofOffset text first = ofOffset text second ↔ first = second := by
  constructor
  · intro same
    rcases Nat.eq_or_lt_of_le ordered with equal | less
    · exact equal
    · exact absurd same (before_ofOffset less inside).ne
  · rintro rfl
    rfl

theorem ofOffset_of_le {offset : Nat} (beyond : byteSize text.toList ≤ offset) :
    ofOffset text offset = ofOffset text (byteSize text.toList) := by
  rw [← Text.length_bytes, ← Text.toList_toUTF8] at beyond ⊢
  rw [ofOffset, ofOffset, List.take_of_length_le beyond, List.take_length]

end

/-- The offsets of a text and the locations in it correspond to one another: a later offset has a later
location, an offset is that of its location, and a location is that of its offset. Beyond the end of
the text every offset has the location of the end. -/
theorem offsets_correspond_to_locations (text : String) :
    (∀ first second, first < second → second ≤ byteSize text.toList →
      (ofOffset text first).Before (ofOffset text second)) ∧
    (∀ offset ≤ byteSize text.toList,
      (ofOffset text offset).IsIn text ∧ (ofOffset text offset).offsetIn text = offset) ∧
    (∀ location : Location, location.IsIn text →
      location.offsetIn text ≤ byteSize text.toList ∧
        ofOffset text (location.offsetIn text) = location) ∧
    ∀ offset, byteSize text.toList < offset →
      ofOffset text offset = ofOffset text (byteSize text.toList) := by
  refine ⟨fun _ _ => before_ofOffset, fun offset inside => ?_, fun location isIn => ?_,
    fun offset beyond => ofOffset_of_le (Nat.le_of_lt beyond)⟩
  · obtain ⟨before, line, column, isColumn, rfl⟩ := Text.exists_column inside
    rw [ofOffset_of_isColumn isColumn]
    exact ⟨isIn_iff.2 ⟨before, line, column, isColumn, rfl⟩, offsetIn_of_isColumn isColumn⟩
  · obtain ⟨before, line, column, isColumn, rfl⟩ := isIn_iff.1 isIn
    rw [offsetIn_of_isColumn isColumn]
    exact ⟨isColumn.offset_le, ofOffset_of_isColumn isColumn⟩

-- The first character has two bytes, and the second line is empty.
example : ofOffset "é\n\nb" 4 = ⟨3, 1⟩ ∧ offsetIn "é\n\nb" ⟨3, 1⟩ = 4 := by
  decide +kernel

end WorkflowBundle.Location
