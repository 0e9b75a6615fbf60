/-
This file shows that the segments of a text make up the text, and that a text without placeholders
has no references.
-/

import WorkflowBundle.Variable.Reference

namespace WorkflowBundle.Variable

/-- A text does not go on with a name when its first character is no name character. -/
def EndsName (text : List Char) : Prop :=
  ∀ character ∈ text.head?, isNameCharacter character = false

/-- A text that starts with another character does not go on with a name. -/
theorem endsName_cons {next : Char} (stop : isNameCharacter next = false) (rest : List Char) :
    EndsName (next :: rest) := by
  rintro character ⟨⟩
  exact stop

section Run

variable {name rest : List Char} (clean : ∀ character ∈ name, isNameCharacter character = true)
  (ends : EndsName rest)

include clean ends

/-- A run of name characters is taken where the text does not go on with it. -/
theorem takeWhile_of_endsName : (name ++ rest).takeWhile isNameCharacter = name := by
  rw [List.takeWhile_append_of_pos clean]
  cases rest with
  | nil => exact List.append_nil name
  | cons next rest =>
      rw [List.takeWhile_cons_of_neg (by simp [ends next rfl]), List.append_nil]

/-- Behind a run of name characters is what does not go on with it. -/
theorem dropWhile_of_endsName : (name ++ rest).dropWhile isNameCharacter = rest := by
  rw [List.dropWhile_append_of_pos clean]
  cases rest with
  | nil => rfl
  | cons next rest => rw [List.dropWhile_cons_of_neg (by simp [ends next rfl])]

end Run

/-- A name in marks is read where the marks enclose a name and do not go on with it. -/
theorem enclosed?_eq_some_iff {opening closing text : List Char} {found : Reference} :
    enclosed? opening closing text = some found ↔
      ∃ name rest, name ≠ [] ∧ (∀ character ∈ name, isNameCharacter character = true) ∧
        EndsName (closing ++ rest) ∧ found = ⟨opening ++ name ++ closing, String.ofList name⟩ ∧
        text = opening ++ (name ++ (closing ++ rest)) := by
  constructor
  · intro read
    rw [enclosed?] at read
    split at read
    · rename_i opened
      obtain ⟨inner, rfl⟩ := List.isPrefixOf_iff_prefix.1 opened
      simp only [List.drop_left] at read
      split at read
      · rename_i closed
        obtain ⟨named, closes⟩ := Bool.and_eq_true_iff.1 closed
        obtain ⟨rest, remaining⟩ := List.isPrefixOf_iff_prefix.1 closes
        refine ⟨inner.takeWhile isNameCharacter, rest, by simpa using named,
          List.all_eq_true.1 List.all_takeWhile, ?_, (Option.some.inj read).symm, ?_⟩
        · rw [remaining]
          intro character first
          have stopped := List.head?_dropWhile_not isNameCharacter inner
          rw [Option.mem_def.1 first] at stopped
          exact stopped
        · rw [remaining, List.takeWhile_append_dropWhile]
      · nomatch read
    · nomatch read
  · rintro ⟨name, rest, named, clean, ends, rfl, rfl⟩
    have taken := takeWhile_of_endsName clean ends
    have dropped := dropWhile_of_endsName clean ends
    have opened : opening.isPrefixOf (opening ++ (name ++ (closing ++ rest))) = true :=
      List.isPrefixOf_iff_prefix.2 (List.prefix_append _ _)
    have closed : closing.isPrefixOf (closing ++ rest) = true :=
      List.isPrefixOf_iff_prefix.2 (List.prefix_append _ _)
    simp [enclosed?, opened, taken, dropped, closed, named]

/-- A name in marks is written at the start of the text it is read from. -/
theorem written_of_enclosed? {opening closing text : List Char} {found : Reference}
    (read : enclosed? opening closing text = some found) :
    found.written <+: text ∧ found.written ≠ [] := by
  obtain ⟨name, rest, named, -, -, rfl, rfl⟩ := enclosed?_eq_some_iff.1 read
  exact ⟨by simp [← List.append_assoc], by simp [named]⟩

/-- A reference is written at the start of the text it is found in. -/
theorem written_of_reference? {text : List Char} {found : Reference}
    (read : reference? text = some found) : found.written <+: text ∧ found.written ≠ [] := by
  rw [reference?, Option.or_eq_some_iff, Option.or_eq_some_iff] at read
  rcases read with doubled | ⟨-, configuration | ⟨-, single⟩⟩
  · exact written_of_enclosed? doubled
  · exact written_of_enclosed? configuration
  · exact written_of_enclosed? single

/-- Scanning yields the text behind the characters it skips. -/
theorem written_segmentsFrom (pending : Nat) (text : List Char) :
    (segmentsFrom pending text).flatMap Segment.written = text.drop pending := by
  induction text generalizing pending with
  | nil => cases pending <;> rfl
  | cons character rest inductionHypothesis =>
      cases pending with
      | succ pending => exact inductionHypothesis pending
      | zero =>
          rw [segmentsFrom]
          cases read : reference? (character :: rest) with
          | none => exact congrArg (character :: ·) (inductionHypothesis 0)
          | some found =>
              obtain ⟨⟨behind, text⟩, written⟩ := written_of_reference? read
              obtain ⟨first, others, shape⟩ := List.exists_cons_of_ne_nil written
              change found.written ++ (segmentsFrom _ rest).flatMap Segment.written = _
              rw [inductionHypothesis]
              rw [shape] at text ⊢
              obtain ⟨rfl, rfl⟩ := List.cons.inj text
              simp

theorem written_segments (text : String) :
    (segments text).flatMap Segment.written = text.toList :=
  written_segmentsFrom 0 text.toList

/-- A name in braces is a placeholder, whatever follows it. -/
theorem isSome_placeholder? {name : List Char} (named : name ≠ [])
    (clean : ∀ character ∈ name, isNameCharacter character = true) (rest : List Char) :
    (placeholder? ('\x7b' :: (name ++ '\x7d' :: rest))).isSome := by
  have ends : EndsName (['\x7d'] ++ rest) := endsName_cons (by decide) rest
  exact Option.isSome_of_eq_some
    (enclosed?_eq_some_iff.2 ⟨name, rest, named, clean, ends, rfl, rfl⟩)

theorem placeholdersFrom_ne_nil (before : List Char) {text : List Char}
    (here : (placeholder? text).isSome) : placeholdersFrom (before ++ text) ≠ [] := by
  induction before with
  | nil =>
      cases text with
      | nil => nomatch here
      | cons character rest =>
          obtain ⟨found, read⟩ := Option.isSome_iff_exists.1 here
          simp [placeholdersFrom, read]
  | cons character before inductionHypothesis =>
      rw [List.cons_append, placeholdersFrom]
      exact List.append_ne_nil_of_right_ne_nil _ inductionHypothesis

/-- A reference of any kind holds a placeholder. -/
theorem exists_placeholder_of_reference? {text : List Char} {found : Reference}
    (read : reference? text = some found) :
    ∃ before behind, text = before ++ behind ∧ (placeholder? behind).isSome := by
  rw [reference?, Option.or_eq_some_iff, Option.or_eq_some_iff] at read
  rcases read with doubled | ⟨-, configuration | ⟨-, single⟩⟩
  · obtain ⟨name, rest, named, clean, -, -, rfl⟩ := enclosed?_eq_some_iff.1 doubled
    exact ⟨['\x7b'], '\x7b' :: (name ++ '\x7d' :: '\x7d' :: rest), by simp,
      isSome_placeholder? named clean _⟩
  · obtain ⟨name, rest, -, -, -, -, rfl⟩ := enclosed?_eq_some_iff.1 configuration
    -- The mark of a configuration key is itself a name in braces with a colon behind it.
    have mark : configurationMark = '\x7b' :: ("config_source".toList ++ ['\x7d', ':']) := rfl
    have shape : configurationMark ++ (name ++ ([] ++ rest)) =
        '\x7b' :: ("config_source".toList ++ '\x7d' :: ':' :: (name ++ rest)) := by
      simp only [mark, List.append_assoc, List.cons_append, List.nil_append]
    rw [shape]
    have clean : ∀ character ∈ "config_source".toList, isNameCharacter character = true :=
      List.all_eq_true.1 rfl
    exact ⟨[], _, rfl, isSome_placeholder? (by decide) clean _⟩
  · exact ⟨[], text, rfl, by simp [single]⟩

/-- A reference among the segments of a text is read at some place of the text. -/
theorem reference?_of_mem_segmentsFrom {pending : Nat} {text : List Char} {found : Reference}
    (member : .reference found ∈ segmentsFrom pending text) :
    ∃ before behind, text = before ++ behind ∧ reference? behind = some found := by
  induction text generalizing pending with
  | nil => cases pending <;> nomatch member
  | cons character rest inductionHypothesis =>
      have later {pending : Nat} (deeper : .reference found ∈ segmentsFrom pending rest) :
          ∃ before behind, character :: rest = before ++ behind ∧
            reference? behind = some found := by
        obtain ⟨before, behind, rfl, read⟩ := inductionHypothesis deeper
        exact ⟨character :: before, behind, rfl, read⟩
      cases pending with
      | succ pending => exact later member
      | zero =>
          rw [segmentsFrom] at member
          split at member
          · rename_i first read
            rcases List.mem_cons.1 member with same | deeper
            · obtain rfl := Segment.reference.inj same
              exact ⟨[], _, rfl, read⟩
            · exact later deeper
          · rcases List.mem_cons.1 member with literal | deeper
            · nomatch literal
            · exact later deeper

/-- A text without placeholders has no references. -/
theorem not_mem_segments_of_plain {text : String} (plain : hasPlaceholder text = false)
    (found : Reference) : .reference found ∉ segments text := by
  intro member
  obtain ⟨before, behind, split, read⟩ := reference?_of_mem_segmentsFrom member
  obtain ⟨inner, place, rfl, here⟩ := exists_placeholder_of_reference? read
  have present := placeholdersFrom_ne_nil (before ++ inner) here
  rw [List.append_assoc, ← split] at present
  simp [hasPlaceholder, present] at plain

end WorkflowBundle.Variable
