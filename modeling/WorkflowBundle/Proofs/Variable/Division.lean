/-
This file shows that joined texts are scanned one by one where no reference can hold the separator
between them, so that their references are replaced as in each text alone.
-/

import WorkflowBundle.Proofs.Variable.Scan
import WorkflowBundle.Proofs.Variable.Substitution

namespace WorkflowBundle.Variable

/-- A text that starts with a reference does so with more text behind it as well. -/
theorem isSome_reference?_append {text : List Char} (read : (reference? text).isSome)
    (more : List Char) : (reference? (text ++ more)).isSome := by
  obtain ⟨found, read⟩ := Option.isSome_iff_exists.1 read
  obtain ⟨name, rest, named, clean, label, rfl, shape⟩ := reference?_eq_some_iff.1 read
  rcases marked : configurationReference? (found.written ++ rest ++ more) with _ | other
  · have single : found.written = ['\x7b', '\x7b'] ++ name ++ ['\x7d', '\x7d'] ∨
        found.written = ['\x7b'] ++ name ++ ['\x7d'] := by
      rcases shape with doubled | ⟨configuration, ends⟩ | ⟨single, -⟩
      · exact .inl doubled
      · -- A reference to the configuration would be one with more text, too.
        have still : (configurationReference? (found.written ++ rest)).isSome :=
          Option.isSome_of_eq_some (enclosed?_eq_some_iff.2
            ⟨name, rest, named, clean, ends, rfl, by simp [configuration]⟩)
        have contrary := isSome_configurationReference?_append still more
        rw [marked] at contrary
        nomatch contrary
      · exact .inr single
    refine Option.isSome_of_eq_some (reference?_eq_some_iff.2
      ⟨name, rest ++ more, named, clean, label, List.append_assoc _ _ _, ?_⟩)
    exact single.imp id fun single => .inr ⟨single, marked⟩
  · rw [reference?, Option.isSome_or, Option.isSome_or, marked]
    simp

section

variable {separator : Char} (outside : standsInReference separator = false)

include outside

/-- A reference is read before a character that no reference holds if and only if it is read there
without what follows. -/
theorem reference?_append_cons (first second : List Char) :
    reference? (first ++ separator :: second) = reference? first := by
  rcases read : reference? (first ++ separator :: second) with _ | found
  · rcases alone : reference? first with _ | found
    · rfl
    · have still := isSome_reference?_append (Option.isSome_of_eq_some alone) (separator :: second)
      rw [read] at still
      nomatch still
  · obtain ⟨behind, whole⟩ := (written_of_reference? read).1
    obtain ⟨rest, rfl⟩ : ∃ rest, first = found.written ++ rest := by
      rcases List.append_eq_append_iff.1 whole with ⟨rest, shape, -⟩ | ⟨more, shape, tail⟩
      · exact ⟨rest, shape⟩
      · cases more with
        | nil => exact ⟨[], by simpa using shape.symm⟩
        | cons next more =>
            obtain ⟨rfl, -⟩ := List.cons.inj tail
            have stands := all_standsInReference read separator (by simp [shape])
            nomatch outside.symm.trans stands
    rw [List.append_assoc] at read
    exact (reference?_of_append read).symm

/-- A character that no reference holds divides the segments of a text. -/
theorem segmentsFrom_append_cons (first second : List Char) :
    segmentsFrom 0 (first ++ separator :: second) =
      segmentsFrom 0 first ++ .literal separator :: segmentsFrom 0 second := by
  induction length : first.length using Nat.strongRecOn generalizing first with
  | ind size inductionHypothesis =>
      subst length
      have same := reference?_append_cons outside first second
      cases first with
      | nil =>
          have none : reference? (separator :: second) = none := same
          simp only [List.nil_append, segmentsFrom, none]
      | cons character rest =>
          rcases read : reference? (character :: rest) with _ | found
          · rw [read, List.cons_append] at same
            rw [List.cons_append, segmentsFrom, segmentsFrom, same, read]
            exact congrArg (List.cons _) (inductionHypothesis rest.length (by simp) rest rfl)
          · obtain ⟨⟨behind, whole⟩, written⟩ := written_of_reference? read
            rw [read] at same
            rw [← whole, List.append_assoc] at same
            rw [← whole] at read
            have shorter : behind.length < (character :: rest).length := by
              have long := List.length_pos_iff.2 written
              have total := congrArg List.length whole
              rw [List.length_append] at total
              omega
            rw [← whole, List.append_assoc, segmentsFrom_reference same,
              segmentsFrom_reference read,
              inductionHypothesis behind.length shorter behind rfl, List.cons_append]

end

section

variable {separator : String} (written : separator ≠ "")
  (outside : ∀ character ∈ separator.toList, standsInReference character = false)

include written outside

/-- The segments of two texts around a separator are those of both texts around its characters. -/
theorem segments_append (first second : String) :
    segments (first ++ separator ++ second) =
      segments first ++ (separator.toList.map .literal ++ segments second) := by
  have behind (text : List Char)
      (outside : ∀ character ∈ text, standsInReference character = false) :
      segmentsFrom 0 (text ++ second.toList) =
        text.map .literal ++ segmentsFrom 0 second.toList := by
    induction text with
    | nil => rfl
    | cons character rest inductionHypothesis =>
        obtain ⟨here, later⟩ := List.forall_mem_cons.1 outside
        exact (segmentsFrom_append_cons here [] _).trans
          (congrArg (List.cons _) (inductionHypothesis later))
  have nonempty : separator.toList ≠ [] := by simpa using written
  obtain ⟨head, tail, shape⟩ := List.exists_cons_of_ne_nil nonempty
  rw [shape] at outside
  obtain ⟨here, later⟩ := List.forall_mem_cons.1 outside
  rw [segments, segments, segments, String.toList_append, String.toList_append, shape,
    List.append_assoc, List.cons_append, segmentsFrom_append_cons here, behind tail later,
    List.map_cons, List.cons_append]

/-- The segments of joined texts are those of the texts, with the characters of the separator between
neighbours. -/
theorem segments_join (parts : List String) :
    segments (Text.join separator parts) =
      (separator.toList.map Segment.literal).intercalate (parts.map segments) := by
  induction parts with
  | nil => rfl
  | cons part rest inductionHypothesis =>
      cases rest with
      | nil => simp [Text.join]
      | cons next more =>
          rw [Text.join, String.intercalate_cons_cons, segments_append written outside,
            List.map_cons, List.map_cons, List.intercalate_cons_cons, List.append_assoc]
          exact congrArg _ (congrArg _ inductionHypothesis)

/-- Joined texts have the references of the texts. -/
theorem reference_mem_segments_join_iff {parts : List String} {found : Reference} :
    .reference found ∈ segments (Text.join separator parts) ↔
      ∃ part ∈ parts, .reference found ∈ segments part := by
  induction parts with
  | nil => simp [Text.join, segments, segmentsFrom]
  | cons part rest inductionHypothesis =>
      cases rest with
      | nil => simp [Text.join]
      | cons next more =>
          rw [List.exists_mem_cons_iff, ← inductionHypothesis, Text.join,
            String.intercalate_cons_cons, segments_append written outside, Text.join]
          simp

theorem fill_join (lookup : String → Option String) (parts : List String) :
    fill lookup (Text.join separator parts) = Text.join separator (parts.map (fill lookup)) := by
  induction parts with
  | nil => rfl
  | cons part rest inductionHypothesis =>
      cases rest with
      | nil => simp [Text.join]
      | cons next more =>
          have literals : (separator.toList.map Segment.literal).flatMap
              (Segment.replacement lookup) = separator.toList := by
            rw [List.flatMap_map]
            exact List.flatMap_singleton' _
          rw [List.map_cons] at inductionHypothesis ⊢
          rw [List.map_cons, Text.join, Text.join, String.intercalate_cons_cons,
            String.intercalate_cons_cons, fill, segments_append written outside,
            List.flatMap_append, List.flatMap_append, literals, String.ofList_append,
            String.ofList_append, String.ofList_toList, ← String.append_assoc]
          exact congrArg _ inductionHypothesis

/-- Joined texts can be expanded if and only if each of them can. -/
theorem exists_expandText_join_iff {table : Table} {parts : List String} :
    (∃ result, expandText table (Text.join separator parts) = .ok result) ↔
      ∀ part ∈ parts, ∃ result, expandText table part = .ok result := by
  simp only [expandText, exists_expandWithin_iff,
    reference_mem_segments_join_iff written outside]
  constructor
  · intro each part member found inside
    exact each found ⟨part, member, inside⟩
  · rintro each found ⟨part, member, inside⟩
    exact each part member found inside

/-- Where all of some joined texts can be expanded, the variables are substituted into each of
them. -/
theorem substitute_join_of_expands {table : Table} {parts : List String}
    (expands : ∀ part ∈ parts, ∃ result, expandText table part = .ok result) :
    substitute table (Text.join separator parts) =
      Text.join separator (parts.map (substitute table)) := by
  have used {text : String} (expands : ∃ result, expandText table text = .ok result) :
      used? table text = given? table chainLimit [] := by
    obtain ⟨result, done⟩ := expands
    rw [used?, done]
  rw [substitute_eq_fill, used ((exists_expandText_join_iff written outside).2 expands),
    fill_join written outside]
  refine congrArg _ (List.map_congr_left fun part member => ?_)
  rw [substitute_eq_fill, used (expands part member)]

/-- Where some of the joined texts cannot be expanded, the values are inserted as they are into each
of them. -/
theorem substitute_join_of_fails {table : Table} {parts : List String}
    (fails : ∃ part ∈ parts, ∀ result, expandText table part ≠ .ok result) :
    substitute table (Text.join separator parts) =
      Text.join separator (parts.map (insertValues table)) := by
  have stuck : ¬ ∃ result, expandText table (Text.join separator parts) = .ok result := by
    rw [exists_expandText_join_iff written outside]
    intro each
    obtain ⟨part, member, fails⟩ := fails
    obtain ⟨result, done⟩ := each part member
    exact fails result done
  rcases expansion : expandText table (Text.join separator parts) with violation | result
  · rw [substitute, expansion]
    exact fill_join written outside table.text? parts
  · exact absurd ⟨result, expansion⟩ stuck

end

end WorkflowBundle.Variable
