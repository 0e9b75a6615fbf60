/-
This file says how a text divides into its references and the characters outside of them, apart from
the scan that finds them, and which parts of a text a substitution keeps.
-/

import WorkflowBundle.Proofs.Variable.Spelling

namespace WorkflowBundle.Variable

/-- A reference is a name in double braces, a name behind the mark of the configuration, or a name in
single braces. -/
inductive Form where
  | doubled
  | key
  | single
deriving DecidableEq

namespace Form

def opening : Form → List Char
  | .doubled => ['\x7b', '\x7b']
  | .key => "\x7bconfig_source\x7d:".toList
  | .single => ['\x7b']

def closing : Form → List Char
  | .doubled => ['\x7d', '\x7d']
  | .key => []
  | .single => ['\x7d']

/-- At one place a form of lower rank is preferred. -/
def rank : Form → Nat
  | .doubled => 0
  | .key => 1
  | .single => 2

/-- A text starts with a reference of a form when the form stands around a name that is as long as
possible. -/
def Starts (form : Form) (found : Reference) (text : List Char) : Prop :=
  ∃ rest, IsName found.name ∧ EndsName (form.closing ++ rest) ∧
    found.written = form.opening ++ found.name.toList ++ form.closing ∧
    text = found.written ++ rest

end Form

/-- The preferred reference at the start of a text has a form that is preferred to all others that
start the text. -/
def IsPreferred (found : Reference) (text : List Char) : Prop :=
  ∃ form : Form, form.Starts found text ∧
    ∀ (other : Form) (reference : Reference), other.Starts reference text →
      form.rank ≤ other.rank

/-- A text divides from left to right: where references start, the preferred one is a part, and
elsewhere the next character. -/
inductive Divides : List Char → List Segment → Prop where
  | done : Divides [] []
  | reference {found : Reference} {rest : List Char} {parts : List Segment}
      (preferred : IsPreferred found (found.written ++ rest)) (behind : Divides rest parts) :
      Divides (found.written ++ rest) (.reference found :: parts)
  | literal {character : Char} {rest : List Char} {parts : List Segment}
      (outside : ∀ (form : Form) (found : Reference), ¬ form.Starts found (character :: rest))
      (behind : Divides rest parts) : Divides (character :: rest) (.literal character :: parts)

section

variable {text : List Char} {found : Reference}

/-- A text starts with a reference of a form when its marks enclose the name. -/
theorem Form.starts_iff {form : Form} :
    form.Starts found text ↔ enclosed? form.opening form.closing text = some found := by
  rw [enclosed?_eq_some_iff]
  constructor
  · rintro ⟨rest, isName, ends, written, rfl⟩
    refine ⟨found.name.toList, rest, isName.1, isName.2, ends, ?_, by simp [written]⟩
    rw [← written, String.ofList_toList]
  · rintro ⟨name, rest, named, clean, ends, rfl, rfl⟩
    refine ⟨rest, ⟨by simpa using named, by simpa using clean⟩, ends, by simp, by simp⟩

theorem Form.not_starts {form : Form} (unread : enclosed? form.opening form.closing text = none) :
    ¬ form.Starts found text := by
  intro starts
  rw [Form.starts_iff, unread] at starts
  cases starts

/-- Where a form is preferred, those of lower rank are not read. -/
theorem Form.unread {form other : Form} (better : other.rank < form.rank)
    (least : ∀ (other : Form) (reference : Reference), other.Starts reference text →
      form.rank ≤ other.rank) : enclosed? other.opening other.closing text = none := by
  rw [Option.eq_none_iff_forall_ne_some]
  intro reference read
  exact absurd better (Nat.not_lt.2 (least other reference (Form.starts_iff.2 read)))

/-- The reference that is read at the start of a text is the preferred one. -/
theorem reference?_eq_some_iff_isPreferred :
    reference? text = some found ↔ IsPreferred found text := by
  rw [reference?, Option.or_eq_some_iff, Option.or_eq_some_iff]
  constructor
  · rintro (doubled | ⟨noDoubled, key | ⟨noKey, single⟩⟩)
    · exact ⟨.doubled, Form.starts_iff.2 doubled, fun _ _ _ => Nat.zero_le _⟩
    · refine ⟨.key, Form.starts_iff.2 key, fun other reference starts => ?_⟩
      cases other with
      | doubled => exact absurd starts (Form.not_starts noDoubled)
      | key => exact Nat.le_refl _
      | single => decide
    · refine ⟨.single, Form.starts_iff.2 single, fun other reference starts => ?_⟩
      cases other with
      | doubled => exact absurd starts (Form.not_starts noDoubled)
      | key => exact absurd starts (Form.not_starts noKey)
      | single => exact Nat.le_refl _
  · rintro ⟨form, starts, least⟩
    have read := Form.starts_iff.1 starts
    cases form with
    | doubled => exact .inl read
    | key => exact .inr ⟨@Form.unread text .key .doubled (by decide) least, .inl read⟩
    | single =>
        exact .inr ⟨@Form.unread text .single .doubled (by decide) least,
          .inr ⟨@Form.unread text .single .key (by decide) least, read⟩⟩

theorem reference?_eq_none_iff :
    reference? text = none ↔ ∀ (form : Form) (found : Reference), ¬ form.Starts found text := by
  rw [reference?, Option.or_eq_none_iff, Option.or_eq_none_iff]
  constructor
  · rintro ⟨noDoubled, noKey, noSingle⟩ form found
    cases form with
    | doubled => exact Form.not_starts noDoubled
    | key => exact Form.not_starts noKey
    | single => exact Form.not_starts noSingle
  · intro outside
    have unread (form : Form) : enclosed? form.opening form.closing text = none :=
      Option.eq_none_iff_forall_ne_some.2 fun found read =>
        outside form found (Form.starts_iff.2 read)
    exact ⟨unread .doubled, unread .key, unread .single⟩

/-- The scan finds the segments that the text divides into. -/
theorem Divides.segmentsFrom_eq {parts : List Segment} (divides : Divides text parts) :
    segmentsFrom 0 text = parts := by
  induction divides with
  | done => rfl
  | reference preferred _ inductionHypothesis =>
      rw [segmentsFrom_reference (reference?_eq_some_iff_isPreferred.2 preferred),
        inductionHypothesis]
  | literal outside _ inductionHypothesis =>
      simp only [segmentsFrom, reference?_eq_none_iff.2 outside, inductionHypothesis]

/-- Every text divides into the segments that the scan finds. -/
theorem divides_segmentsFrom (text : List Char) : Divides text (segmentsFrom 0 text) := by
  induction size : text.length using Nat.strongRecOn generalizing text with
  | ind size inductionHypothesis =>
      subst size
      cases text with
      | nil => exact .done
      | cons character rest =>
          cases read : reference? (character :: rest) with
          | none =>
              simp only [segmentsFrom, read]
              exact .literal (reference?_eq_none_iff.1 read)
                (inductionHypothesis rest.length (by simp) rest rfl)
          | some found =>
              obtain ⟨⟨behind, whole⟩, written⟩ := written_of_reference? read
              have long := List.length_pos_iff.2 written
              have total := congrArg List.length whole
              rw [List.length_append] at total
              rw [← whole] at read ⊢
              rw [segmentsFrom_reference read]
              exact .reference (reference?_eq_some_iff_isPreferred.1 read)
                (inductionHypothesis behind.length (by omega) behind rfl)

/-- A text has a placeholder when one is read at some place. -/
theorem exists_placeholder_of_ne_nil (some : placeholdersFrom text ≠ []) :
    ∃ before behind, text = before ++ behind ∧ (placeholder? behind).isSome := by
  induction text with
  | nil => exact absurd rfl some
  | cons character rest inductionHypothesis =>
      cases read : placeholder? (character :: rest) with
      | some found => exact ⟨[], _, rfl, by rw [read]; rfl⟩
      | none =>
          rw [placeholdersFrom, read] at some
          obtain ⟨before, behind, rfl, here⟩ := inductionHypothesis some
          exact ⟨character :: before, behind, rfl, here⟩

end

/-- A text has a reference exactly when it has a placeholder. -/
theorem exists_reference_iff {text : String} :
    (∃ found, .reference found ∈ segments text) ↔ hasPlaceholder text = true := by
  constructor
  · rintro ⟨found, member⟩
    by_contra plain
    exact not_mem_segments_of_plain (by simpa using plain) found member
  · intro holds
    have placed : placeholdersFrom text.toList ≠ [] := by simpa [hasPlaceholder] using holds
    obtain ⟨before, behind, whole, here⟩ := exists_placeholder_of_ne_nil placed
    -- Where a placeholder stands some reference is read, though it need not be this placeholder.
    have read : (reference? behind).isSome := by
      rw [reference?, Option.isSome_or, Option.isSome_or, here, Bool.or_true, Bool.or_true]
    obtain ⟨found, read⟩ := Option.isSome_iff_exists.1 read
    obtain ⟨other, member, -⟩ := exists_reference_of_read read before (Nat.zero_le _)
    exact ⟨other, by rwa [segments, whole]⟩

/-- A variable that a text refers to is used in a substitution exactly when it is defined. -/
theorem used?_eq_none_iff {table : Table} {text : String} {found : Reference}
    (member : .reference found ∈ segments text) :
    used? table text found.name = none ↔ table.find? found.name = none := by
  constructor
  · intro unused
    rcases bound : table.find? found.name with _ | value
    · rfl
    · rw [used?] at unused
      cases expansion : expandText table text with
      | error violation => simp [expansion, Table.text?, bound] at unused
      | ok expanded =>
          simp only [expansion, given?, bound] at unused
          cases value with
          | unresolved inner =>
              -- Where a text is expanded, so are the values that it refers to.
              obtain ⟨result, done⟩ :=
                (exists_expandWithin_iff.1 ⟨expanded, expansion⟩ found member).2 inner bound
              rw [List.nil_append] at done
              simp [done, Except.toOption] at unused
          | _ => cases unused
  · exact used?_of_missing text

/-- A text divides in one way, from left to right, into the preferred references and the characters
where none starts, and these parts make up the text. It has a reference exactly when it has a
placeholder. A substitution keeps all parts in order: the characters outside of references as they are,
and a reference as written exactly when its name is not defined. So a text that is classified as plain
stays as it is. -/
theorem references_are_found_and_kept (text : String) :
    (∀ parts, Divides text.toList parts ↔ segments text = parts) ∧
      (segments text).flatMap Segment.written = text.toList ∧
      ((∃ found, .reference found ∈ segments text) ↔ hasPlaceholder text = true) ∧
      (∀ table, ∃ inserted : String → Option String,
        (∀ found, .reference found ∈ segments text →
          (inserted found.name = none ↔ table.find? found.name = none)) ∧
        (substitute table text).toList = (segments text).flatMap fun
          | .literal character => [character]
          | .reference found => ((inserted found.name).map String.toList).getD found.written) ∧
      ((Value.ofText text).isUnresolved = false → ∀ table, substitute table text = text) := by
  refine ⟨fun parts => ⟨Divides.segmentsFrom_eq, ?_⟩, written_segments text,
    exists_reference_iff, fun table => ⟨used? table text, fun _ => used?_eq_none_iff, ?_⟩, ?_⟩
  · rintro rfl
    exact divides_segmentsFrom text.toList
  · rw [substitute_eq_fill, fill, String.toList_ofList]
    refine List.flatMap_congr fun segment _ => ?_
    cases segment <;> rfl
  · intro plain table
    have none : hasPlaceholder text = false := by
      rw [Value.ofText] at plain
      split at plain
      · cases plain
      · rename_i absent
        exact Bool.eq_false_iff.2 absent
    rw [substitute_eq_fill, fill_of_plain none]

/-- A key of the configuration is preferred to the name in its mark, and braces that enclose no name
divide into characters. -/
example : segments "\x7b\x7ba\x7d\x7bconfig_source\x7d:k" =
    [.literal '\x7b', .reference ⟨"\x7ba\x7d".toList, "a"⟩,
      .reference ⟨"\x7bconfig_source\x7d:k".toList, "k"⟩] := by
  decide

end WorkflowBundle.Variable
