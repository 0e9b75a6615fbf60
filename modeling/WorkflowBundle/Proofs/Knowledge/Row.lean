/-
This file says which fragment of knowledge a row of a table is.
-/

import Mathlib.Data.List.Sort
import Mathlib.Data.String.Basic
import WorkflowBundle.Knowledge.Index
import WorkflowBundle.Proofs.Csv
import WorkflowBundle.Proofs.Text.Pieces

namespace WorkflowBundle

namespace Fragment

theorem nodup_eraseDups (texts : List String) : texts.eraseDups.Nodup ∧
    texts.eraseDups.Sublist texts := by
  induction length : texts.length using Nat.strong_induction_on generalizing texts with
  | _ size inductionHypothesis =>
      subst length
      cases texts with
      | nil => exact ⟨List.nodup_nil, .slnil⟩
      | cons text rest =>
          rw [List.eraseDups_cons]
          have shorter : (rest.filter (!· == text)).length < (text :: rest).length :=
            Nat.lt_succ_of_le (List.length_filter_le _ _)
          obtain ⟨distinct, sublist⟩ := inductionHypothesis _ shorter _ rfl
          refine ⟨List.nodup_cons.2 ⟨fun member => ?_, distinct⟩, ?_⟩
          · have other := (List.mem_filter.1 (List.mem_eraseDups.1 member)).2
            simp at other
          · exact (sublist.trans List.filter_sublist).cons_cons text

theorem pairwise_sortedSet (texts : List String) : (sortedSet texts).Pairwise (· < ·) := by
  have sorted : (texts.mergeSort fun first second => decide (first ≤ second)).Pairwise (· ≤ ·) :=
    List.pairwise_mergeSort' (· ≤ ·) texts
  obtain ⟨distinct, sublist⟩ :=
    nodup_eraseDups (texts.mergeSort fun first second => decide (first ≤ second))
  exact ((sorted.sublist sublist).and distinct).imp fun both => lt_of_le_of_ne both.1 both.2

theorem mem_sortedSet {texts : List String} {text : String} :
    text ∈ sortedSet texts ↔ text ∈ texts := by
  rw [sortedSet, List.mem_eraseDups, List.mem_mergeSort]

/-- Commas and semicolons separate tags. -/
def separatesTags (character : Char) : Bool :=
  character == ',' || character == ';'

/-- The tags of a text are its trimmed pieces that are not empty, in ascending order. -/
structure AreTagsOf (text : String) (tags : List String) : Prop where
  ascending : tags.Pairwise (· < ·)
  pieces : ∀ tag, tag ∈ tags ↔
    tag ≠ "" ∧ ∃ piece, Text.IsPiece separatesTags text.toList piece ∧
      tag = Text.trim (String.ofList piece)

/-- The tags that are parsed are the tags of the text. -/
theorem areTagsOf_parseTags (text : String) : AreTagsOf text (parseTags text) where
  ascending := pairwise_sortedSet _
  pieces tag := by
    rw [parseTags, mem_sortedSet, List.mem_filter, List.mem_map, and_comm]
    have written : (!tag.isEmpty) = true ↔ tag ≠ "" := by simp
    refine and_congr written (exists_congr fun piece => ?_)
    exact and_congr Text.mem_pieces_iff eq_comm

/-- A text has one list of tags. -/
theorem AreTagsOf.unique {text : String} {tags others : List String} (areTags : AreTagsOf text tags)
    (again : AreTagsOf text others) : tags = others :=
  areTags.ascending.eq_of_mem_iff again.ascending fun tag =>
    (areTags.pieces tag).trans (again.pieces tag).symm

end Fragment

namespace KnowledgeIndex

open Csv (Holds)

/-- A fragment has the values that are held under the names of its columns. -/
structure IsRead (held : String → String → Prop) (fragment : Fragment) : Prop where
  id : held "id" fragment.id
  name : held "name" fragment.name
  description : held "description" fragment.description
  file : held "fragment_file" fragment.file
  tags : ∃ written, held "tags" written ∧ Fragment.AreTagsOf written fragment.tags

/-- A fragment is listed when it has an identifier and a file that stays in its directory. -/
structure IsListed (held : String → String → Prop) (fragment : Fragment) : Prop where
  isRead : IsRead held fragment
  identified : fragment.id ≠ ""
  located : fragment.file ≠ ""
  accepted : Escape.ofReference? fragment.file = none

section

variable {header fields : List String} {fragment : Fragment}

theorem IsRead.unique {other : Fragment} (once : ∀ column ∈ columns, header.count column = 1)
    (isRead : IsRead (Holds header fields) fragment)
    (again : IsRead (Holds header fields) other) : fragment = other := by
  obtain ⟨written, held, tags⟩ := isRead.tags
  obtain ⟨alsoWritten, alsoHeld, alsoTags⟩ := again.tags
  obtain rfl := Holds.unique (once "tags" (by decide)) held alsoHeld
  have id := Holds.unique (once "id" (by decide)) isRead.id again.id
  have name := Holds.unique (once "name" (by decide)) isRead.name again.name
  have description :=
    Holds.unique (once "description" (by decide)) isRead.description again.description
  have file := Holds.unique (once "fragment_file" (by decide)) isRead.file again.file
  have sameTags := tags.unique alsoTags
  cases fragment
  cases other
  simp_all

/-- The fields that a row finds by the names of the columns. -/
def readRow (row : List (String × String)) : Fragment :=
  let field (name : String) := (row.lookup name).getD ""
  ⟨field "id", field "name", field "description", Fragment.parseTags (field "tags"),
    field "fragment_file"⟩

/-- A row is its fragment unless something is missing or leads elsewhere. -/
theorem fragment?_eq_some_iff_readRow {row : List (String × String)} :
    fragment? row = some fragment ↔ readRow row = fragment ∧ fragment.id ≠ "" ∧
      fragment.file ≠ "" ∧ Escape.ofReference? fragment.file = none := by
  have opened : fragment? row = if (readRow row).id.isEmpty || (readRow row).file.isEmpty ||
      (Escape.ofReference? (readRow row).file).isSome then none else some (readRow row) := rfl
  rw [opened]
  split
  · rename_i faulty
    refine ⟨nofun, ?_⟩
    rintro ⟨rfl, identified, located, accepted⟩
    simp [identified, located, accepted] at faulty
  · rename_i sound
    rw [Option.some.injEq]
    refine ⟨?_, And.left⟩
    rintro rfl
    simpa [not_or, and_assoc] using sound

theorem isRead_readRow (once : ∀ column ∈ columns, header.count column = 1)
    (same : fields.length = header.length) :
    IsRead (Holds header fields) (readRow (header.zip fields)) := by
  have held (column : String) (member : column ∈ columns) :
      Holds header fields column (((header.zip fields).lookup column).getD "") := by
    have named : column ∈ header := by
      apply List.count_pos_iff.1
      rw [once column member]
      decide
    obtain ⟨value, holds⟩ := Csv.exists_holds same named
    rw [(Csv.lookup_eq_some_iff (once column member)).2 holds]
    exact holds
  exact {
    id := held "id" (by decide)
    name := held "name" (by decide)
    description := held "description" (by decide)
    file := held "fragment_file" (by decide)
    tags := ⟨_, held "tags" (by decide), Fragment.areTagsOf_parseTags _⟩ }

/-- A row is a fragment when its record lists it. -/
theorem fragment?_eq_some_iff (once : ∀ column ∈ columns, header.count column = 1)
    (same : fields.length = header.length) :
    fragment? (header.zip fields) = some fragment ↔ IsListed (Holds header fields) fragment := by
  have isRead := isRead_readRow once same
  rw [fragment?_eq_some_iff_readRow]
  constructor
  · rintro ⟨rfl, identified, located, accepted⟩
    exact ⟨isRead, identified, located, accepted⟩
  · rintro ⟨alsoRead, identified, located, accepted⟩
    exact ⟨isRead.unique once alsoRead, identified, located, accepted⟩

end

end KnowledgeIndex

end WorkflowBundle
