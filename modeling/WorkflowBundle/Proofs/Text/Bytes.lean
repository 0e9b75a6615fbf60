/-
This file says which bytes the characters of a text have, and where its lines are among them.
-/

import WorkflowBundle.Proofs.Text.Search

namespace WorkflowBundle.Text

/-- The bytes of a text are those of the UTF-8 form of its characters. -/
def bytes (text : List Char) : List UInt8 :=
  text.flatMap String.utf8EncodeChar

/-- The lines of a text are what stands between its line feeds. -/
def lines (text : List Char) : List (List Char) :=
  pieces (· == '\n') text

/-- A column of a text is on the line behind some other lines, or directly behind that line. -/
structure IsColumn (text : List Char) (before : List (List Char)) (line : List Char)
    (column : Nat) : Prop where
  divided : ∃ after, lines text = before ++ line :: after
  fits : column ≤ byteSize line

theorem bytes_append (first second : List Char) :
    bytes (first ++ second) = bytes first ++ bytes second :=
  List.flatMap_append

theorem byteSize_cons (character : Char) (rest : List Char) :
    byteSize (character :: rest) = character.utf8Size + byteSize rest := by
  rw [← List.singleton_append, byteSize_append, byteSize, List.foldl_cons, List.foldl_nil,
    Nat.zero_add]

/-- Every character has a size. -/
theorem byteSize_eq_zero_iff {text : List Char} : byteSize text = 0 ↔ text = [] := by
  cases text with
  | nil => exact iff_of_true rfl rfl
  | cons character rest =>
      have positive := character.utf8Size_pos
      rw [byteSize_cons]
      exact iff_of_false (by omega) (List.cons_ne_nil _ _)

theorem length_bytes (text : List Char) : (bytes text).length = byteSize text := by
  induction text with
  | nil => rfl
  | cons character rest inductionHypothesis =>
      rw [bytes, List.flatMap_cons, List.length_append, String.length_utf8EncodeChar, ← bytes,
        inductionHypothesis, byteSize_cons]

/-- Listing an array from an index on adds the bytes from there. -/
theorem toList_loop_eq_append (array : ByteArray) (index : Nat) (listed : List UInt8) :
    ByteArray.toList.loop array index listed = listed.reverse ++ array.data.toList.drop index := by
  induction index, listed using ByteArray.toList.loop.induct array with
  | case1 index listed inside inductionHypothesis =>
      have place : index < array.data.toList.length := inside
      have byte : array.get! index = array.data.toList[index] := getElem!_pos array.data index inside
      rw [ByteArray.toList.loop, if_pos inside, inductionHypothesis, List.drop_eq_getElem_cons place,
        List.reverse_cons, List.append_assoc, List.singleton_append, byte]
  | case2 index listed outside =>
      rw [ByteArray.toList.loop, if_neg outside, List.drop_eq_nil_of_le (Nat.le_of_not_lt outside),
        List.append_nil]

theorem toList_toUTF8 (text : String) : text.toUTF8.toList = bytes text.toList := by
  rw [ByteArray.toList, toList_loop_eq_append, List.reverse_nil, List.nil_append, List.drop_zero,
    String.toUTF8_eq_toByteArray, ← String.utf8Encode_toList, List.utf8Encode,
    List.toList_data_toByteArray]
  rfl

/-- The byte of a line feed is in the UTF-8 form of no other character. -/
theorem feed_mem_utf8EncodeChar_iff {character : Char} :
    10 ∈ String.utf8EncodeChar character ↔ character = '\n' := by
  have code : character = '\n' ↔ character.val.toNat = 10 := by
    rw [Char.ext_iff, ← UInt32.toNat_inj]
    rfl
  have byte (number : Nat) : 10 = UInt8.ofNat number ↔ number % 256 = 10 := by
    rw [← UInt8.toNat_inj, UInt8.toNat_ofNat']
    exact eq_comm
  rw [code]
  -- A form of several bytes has none below 128.
  fun_cases String.utf8EncodeChar character
  all_goals
    simp only [List.mem_cons, List.not_mem_nil, or_false, byte]
    omega

theorem feed_not_mem_bytes {text : List Char} (single : '\n' ∉ text) : 10 ∉ bytes text := by
  intro member
  obtain ⟨character, inside, feed⟩ := List.mem_flatMap.1 member
  exact single (feed_mem_utf8EncodeChar_iff.1 feed ▸ inside)

theorem feed_not_mem_line {text line : List Char} (member : line ∈ lines text) : '\n' ∉ line := by
  intro feed
  have plain := isSeparator_eq_false_of_mem_pieces member '\n' feed
  exact absurd plain (by decide)

/-- The lines of a text, each with a line feed behind it, are the text with one. -/
theorem ofLines_lines (text : List Char) : ofLines (lines text) = text ++ ['\n'] := by
  induction text with
  | nil => rfl
  | cons character rest inductionHypothesis =>
      obtain ⟨first, more, divided⟩ := List.exists_cons_of_ne_nil (pieces_ne_nil (· == '\n') rest)
      rw [lines, divided, ofLines_cons] at inductionHypothesis
      rw [lines, pieces, divided]
      split
      · rename_i feed
        rw [eq_of_beq feed, ofLines_cons, ofLines_cons, inductionHypothesis]
        rfl
      · rw [ofLines_cons, List.cons_append, inductionHypothesis]
        rfl

theorem byteSize_ofLines_cons (line : List Char) (others : List (List Char)) :
    byteSize (ofLines (line :: others)) = byteSize line + 1 + byteSize (ofLines others) := by
  rw [ofLines_cons, byteSize_append, byteSize_cons, ← Nat.add_assoc]
  rfl

/-- Every byte of some lines and their line feeds is on one of the lines or directly behind it. -/
theorem exists_line_of_lt {parts : List (List Char)} {offset : Nat}
    (inside : offset < byteSize (ofLines parts)) :
    ∃ before line after column, parts = before ++ line :: after ∧ column ≤ byteSize line ∧
      byteSize (ofLines before) + column = offset := by
  induction parts generalizing offset with
  | nil => exact absurd inside (Nat.not_lt_zero offset)
  | cons line rest inductionHypothesis =>
      by_cases here : offset ≤ byteSize line
      · exact ⟨[], line, rest, offset, rfl, here, Nat.zero_add offset⟩
      · rw [byteSize_ofLines_cons] at inside
        obtain ⟨before, next, after, column, rfl, fits, place⟩ :=
          @inductionHypothesis (offset - (byteSize line + 1)) (by omega)
        refine ⟨line :: before, next, after, column, rfl, fits, ?_⟩
        rw [byteSize_ofLines_cons]
        omega

/-- Every offset of a text is that of a column. -/
theorem exists_column {text : List Char} {offset : Nat} (inside : offset ≤ byteSize text) :
    ∃ before line column, IsColumn text before line column ∧
      byteSize (ofLines before) + column = offset := by
  have within : offset < byteSize (ofLines (lines text)) := by
    rw [ofLines_lines, byteSize_append]
    exact Nat.lt_succ_of_le inside
  obtain ⟨before, line, after, column, divided, fits, place⟩ := exists_line_of_lt within
  exact ⟨before, line, column, ⟨⟨after, divided⟩, fits⟩, place⟩

namespace IsColumn

variable {text line : List Char} {before : List (List Char)} {column : Nat}

theorem feed_not_mem (isColumn : IsColumn text before line column) :
    (∀ other ∈ before, '\n' ∉ other) ∧ '\n' ∉ line := by
  obtain ⟨after, divided⟩ := isColumn.divided
  have member (other : List Char) (found : other ∈ before ++ line :: after) : '\n' ∉ other :=
    feed_not_mem_line (divided ▸ found)
  exact ⟨fun other found => member other (List.mem_append_left _ found),
    member line (List.mem_append_right _ List.mem_cons_self)⟩

/-- The text of a column has the lines before it, its line and a rest. -/
theorem exists_rest (isColumn : IsColumn text before line column) :
    ∃ rest, text = ofLines before ++ line ++ rest := by
  obtain ⟨after, divided⟩ := isColumn.divided
  refine ⟨('\n' :: ofLines after).dropLast, ?_⟩
  calc text = (text ++ ['\n']).dropLast := List.dropLast_concat.symm
    _ = (ofLines before ++ line ++ '\n' :: ofLines after).dropLast := by
      rw [← ofLines_lines, divided, ofLines_append, ofLines_cons, List.append_assoc]
    _ = ofLines before ++ line ++ ('\n' :: ofLines after).dropLast :=
      List.dropLast_append_of_ne_nil (List.cons_ne_nil _ _)

theorem offset_le (isColumn : IsColumn text before line column) :
    byteSize (ofLines before) + column ≤ byteSize text := by
  obtain ⟨rest, shape⟩ := isColumn.exists_rest
  have fits := isColumn.fits
  rw [shape, byteSize_append, byteSize_append]
  omega

/-- The bytes before a column are those of the lines before it and the first ones of its line. -/
theorem take_bytes (isColumn : IsColumn text before line column) :
    (bytes text).take (byteSize (ofLines before) + column) =
      bytes (ofLines before) ++ (bytes line).take column := by
  obtain ⟨rest, shape⟩ := isColumn.exists_rest
  have inside : column ≤ (bytes line).length := length_bytes line ▸ isColumn.fits
  rw [shape, List.append_assoc, bytes_append, bytes_append, ← length_bytes,
    List.take_length_add_append, List.take_append_of_le_length inside]

end IsColumn

end WorkflowBundle.Text
