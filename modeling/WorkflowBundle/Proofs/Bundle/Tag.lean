/-
This file shows that the tags of a bundle are read with their names and attributes.
-/

import Mathlib.Data.List.TakeWhile
import WorkflowBundle.Bundle.Assemble
import WorkflowBundle.Proofs.Xml.Encoding

namespace WorkflowBundle.Bundle

open Xml

/-- A plain character is a letter or a hyphen. -/
def isPlain (character : Char) : Bool :=
  character.isAlpha || character == '-'

/-- A name has plain characters, and at least one. -/
structure IsName (name : String) : Prop where
  written : name.toList ≠ []
  all : name.toList.all isPlain = true

/-- A name can be checked. -/
instance (name : String) : Decidable (IsName name) :=
  decidable_of_iff (name.toList ≠ [] ∧ name.toList.all isPlain = true)
    ⟨fun ⟨written, all⟩ => ⟨written, all⟩, fun named => ⟨named.written, named.all⟩⟩

theorem IsName.plain {name : String} (named : IsName name) {character : Char}
    (member : character ∈ name.toList) : isPlain character = true :=
  List.all_eq_true.1 named.all character member

/-- No plain character has a meaning in markup. -/
theorem ne_of_isPlain {character : Char} (plain : isPlain character = true) :
    character ≠ '<' ∧ character ≠ '>' ∧ character ≠ '/' ∧ character ≠ '!' ∧ character ≠ '?' ∧
      character ≠ '=' ∧ character ≠ '"' ∧ character ≠ '\'' ∧ character ≠ ' ' ∧
      character ≠ '\t' ∧ character ≠ '\r' ∧ character ≠ '\n' := by
  refine ⟨?_, ?_, ?_, ?_, ?_, ?_, ?_, ?_, ?_, ?_, ?_, ?_⟩ <;> rintro rfl <;>
    exact absurd plain (by decide)

theorem isSpace_of_isPlain {character : Char} (plain : isPlain character = true) :
    Xml.isSpace character = false := by
  simp [Xml.isSpace, ne_of_isPlain plain]

theorem dropWhile_plain {characters : List Char}
    (plain : ∀ character ∈ characters, isPlain character = true) :
    characters.dropWhile Xml.isSpace = characters := by
  cases characters with
  | nil => rfl
  | cons first others =>
      have visible := isSpace_of_isPlain (plain first List.mem_cons_self)
      exact List.dropWhile_cons_of_neg (by simp [visible])

/-- A tag goes on behind plain characters. -/
theorem cutTag?_plain {plain : List Char}
    (outside : ∀ character ∈ plain, character ≠ '>' ∧ character ≠ '\'' ∧ character ≠ '"')
    (rest : List Char) :
    Event.cutTag? none (plain ++ rest) =
      (Event.cutTag? none rest).map fun (before, after) => (plain ++ before, after) := by
  induction plain with
  | nil => cases cut : Event.cutTag? none rest <;> simp [cut]
  | cons character others inductionHypothesis =>
      obtain ⟨bracket, apostrophe, quote⟩ := outside character List.mem_cons_self
      have later := inductionHypothesis fun other member =>
        outside other (List.mem_cons_of_mem _ member)
      rw [List.cons_append, Event.cutTag?]
      simp [bracket, apostrophe, quote, later, Function.comp_def]

/-- A tag goes on behind a quoted text. -/
theorem cutTag?_quoted {quoted : List Char} (inside : '"' ∉ quoted) (rest : List Char) :
    Event.cutTag? (some '"') (quoted ++ '"' :: rest) =
      (Event.cutTag? none rest).map fun (before, after) => (quoted ++ '"' :: before, after) := by
  induction quoted with
  | nil =>
      rw [List.nil_append, Event.cutTag?]
      simp
  | cons character others inductionHypothesis =>
      have different : character ≠ '"' := fun same => inside (same ▸ List.mem_cons_self)
      have later := inductionHypothesis fun member => inside (List.mem_cons_of_mem _ member)
      rw [List.cons_append, Event.cutTag?]
      simp [different, later, Function.comp_def]

/-- A mark of one character is found behind other characters. -/
theorem cut?_singleton {mark : Char} {before : List Char} (inside : mark ∉ before)
    (after : List Char) : Text.cut? [mark] (before ++ mark :: after) = some (before, after) := by
  induction before with
  | nil => simp [Text.cut?]
  | cons character others inductionHypothesis =>
      have different : mark ≠ character := fun same => inside (same ▸ List.mem_cons_self)
      have later := inductionHypothesis fun member => inside (List.mem_cons_of_mem _ member)
      rw [List.cons_append, Text.cut?]
      simp [different, later]

/-- A tag of a bundle has at most one attribute, with a label and a value. -/
abbrev Attribute := Option (String × String)

namespace Attribute

/-- An attribute is written in front of the end of its tag. -/
def written : Attribute → List Char
  | none => []
  | some (label, value) => (attributeText label value).toList

/-- An attribute is read with its value decoded. -/
def pairs : Attribute → List (List Char × List Char)
  | none => []
  | some (label, value) => [(label.toList, value.toList)]

/-- The label of an attribute is a name. -/
def IsLabelled (given : Attribute) : Prop :=
  ∀ label value, given = some (label, value) → IsName label

/-- A written attribute is a label and an escaped value in quotes behind a space. -/
theorem written_some (label value : String) :
    written (some (label, value)) =
      ' ' :: (label.toList ++ '=' :: '"' :: ((escape value).toList ++ ['"'])) := by
  simp [written, attributeText]

end Attribute

variable {name : String} {given : Attribute}

/-- The characters of a name end no tag and start no quotes. -/
theorem IsName.outside (named : IsName name) :
    ∀ character ∈ name.toList, character ≠ '>' ∧ character ≠ '\'' ∧ character ≠ '"' := by
  intro character member
  simp [ne_of_isPlain (named.plain member)]

/-- A tag lasts until the bracket behind its attribute. -/
theorem cutTag?_tag (named : IsName name) (labelled : given.IsLabelled) {tail : List Char}
    (outside : ∀ character ∈ tail, character ≠ '>' ∧ character ≠ '\'' ∧ character ≠ '"')
    (rest : List Char) :
    Event.cutTag? none (name.toList ++ (given.written ++ (tail ++ '>' :: rest))) =
      some (name.toList ++ (given.written ++ tail), rest) := by
  have ended : Event.cutTag? none (tail ++ '>' :: rest) = some (tail, rest) := by
    rw [cutTag?_plain outside]
    simp [Event.cutTag?]
  rw [cutTag?_plain named.outside]
  rcases given with _ | ⟨label, value⟩
  · simp [Attribute.written, ended]
  · have unquoted : '"' ∉ (escape value).toList := fun member =>
      (plain_of_mem_escape member).2 rfl
    have label : Event.cutTag? none
        (label.toList ++ '=' :: '"' :: ((escape value).toList ++ '"' :: (tail ++ '>' :: rest))) =
        some (label.toList ++ '=' :: '"' :: ((escape value).toList ++ '"' :: tail), rest) := by
      rw [cutTag?_plain (labelled label value rfl).outside]
      simp [Event.cutTag?, cutTag?_quoted unquoted, ended]
    simp [Attribute.written_some, Event.cutTag?, label]

/-- A name starts no other markup than a tag. -/
theorem ofMarkup_name (named : IsName name) (rest : List Char) :
    Event.ofMarkup (name.toList ++ rest) =
      Event.finish .openTag Event.ofTag (Event.cutTag? none (name.toList ++ rest)) := by
  obtain ⟨first, others, shape⟩ := List.exists_cons_of_ne_nil named.written
  have outside := ne_of_isPlain (named.plain (shape ▸ List.mem_cons_self))
  rw [shape, List.cons_append, Event.ofMarkup.eq_def]
  split <;> simp_all

/-- The last character of a tag with a name is no slash. -/
theorem getLast?_tag (named : IsName name) (given : Attribute) :
    (name.toList ++ given.written).getLast? ≠ some '/' := by
  rcases given with _ | ⟨label, value⟩
  · intro last
    rw [Attribute.written, List.append_nil] at last
    exact absurd (named.plain (List.mem_of_getLast? last)) (by decide)
  · have quoted : name.toList ++ Attribute.written (some (label, value)) =
        name.toList ++ ' ' :: (label.toList ++ '=' :: '"' :: (escape value).toList) ++ ['"'] := by
      simp [Attribute.written_some]
    rw [quoted, List.getLast?_concat]
    decide

/-- A tag of a bundle opens an element. -/
theorem ofMarkup_opening (named : IsName name) (labelled : given.IsLabelled)
    (rest : List Char) :
    Event.ofMarkup (name.toList ++ (given.written ++ '>' :: rest)) =
      .ok (.opening (name.toList ++ given.written), rest) := by
  have cut := cutTag?_tag named labelled (List.forall_mem_nil _) rest
  rw [List.nil_append, List.append_nil] at cut
  rw [ofMarkup_name named, cut]
  change Except.ok (Event.ofTag _, rest) = _
  rw [Event.ofTag, if_neg (mt beq_iff_eq.1 (getLast?_tag named given))]

/-- A tag with a slash at its end is an empty element. -/
theorem ofMarkup_empty (named : IsName name) (labelled : given.IsLabelled)
    (rest : List Char) :
    Event.ofMarkup (name.toList ++ (given.written ++ ' ' :: '/' :: '>' :: rest)) =
      .ok (.empty (name.toList ++ (given.written ++ [' '])), rest) := by
  have cut := cutTag?_tag named labelled (by simp : ∀ character ∈ [' ', '/'],
    character ≠ '>' ∧ character ≠ '\'' ∧ character ≠ '"') rest
  rw [List.cons_append, List.cons_append, List.nil_append] at cut
  rw [ofMarkup_name named, cut]
  simp [Event.finish, Event.ofTag, List.getLast?_append]

/-- A tag with a slash at its start closes an element. -/
theorem ofMarkup_closing (named : IsName name) (rest : List Char) :
    Event.ofMarkup ('/' :: (name.toList ++ '>' :: rest)) = .ok (.closing name.toList, rest) := by
  have cut : Event.cutTag? none (name.toList ++ '>' :: rest) = some (name.toList, rest) := by
    rw [cutTag?_plain named.outside]
    simp [Event.cutTag?]
  have untrimmed : name.toList.reverse.dropWhile Xml.isSpace = name.toList.reverse :=
    dropWhile_plain fun _ member => named.plain (List.mem_reverse.1 member)
  change Event.finish .openTag Event.ofClosingTag (Event.cutTag? none _) = _
  rw [cut]
  simp [Event.finish, Event.ofClosingTag, untrimmed]

/-- A label with a quoted value is read as an attribute. -/
theorem attributeAt_eq {label : String} (named : IsName label) (value : String)
    (rest : List Char) :
    attributeAt (label.toList ++ '=' :: '"' :: ((escape value).toList ++ '"' :: rest)) =
      some ((label.toList, value.toList), rest) := by
  have labelled : ∀ character ∈ label.toList, isLabelCharacter character = true := by
    intro character member
    have plain := named.plain member
    simp [isLabelCharacter, isSpace_of_isPlain plain, ne_of_isPlain plain]
  have unquoted : '"' ∉ (escape value).toList := fun member => (plain_of_mem_escape member).2 rfl
  have cut := cut?_singleton unquoted rest
  rw [attributeAt, List.takeWhile_append_of_pos labelled, List.dropWhile_append_of_pos labelled]
  simp [List.takeWhile, List.dropWhile, isLabelCharacter, Xml.isSpace, cut, decode_escape]

theorem attributesWithin_blank {space : List Char}
    (blank : ∀ character ∈ space, Xml.isSpace character = true) (fuel : Nat) :
    attributesWithin (fuel + 1) space = some [] := by
  have nothing : space.dropWhile Xml.isSpace = [] := List.dropWhile_eq_nil_iff.2 blank
  rw [attributesWithin, nothing]

/-- A written attribute is read, also with white space behind it. -/
theorem attributesWithin_written (labelled : given.IsLabelled) {space : List Char}
    (blank : ∀ character ∈ space, Xml.isSpace character = true) (fuel : Nat) :
    attributesWithin (fuel + 2) (given.written ++ space) = some given.pairs := by
  rcases given with _ | ⟨label, value⟩
  · exact attributesWithin_blank blank (fuel + 1)
  · have named := labelled label value rfl
    obtain ⟨first, others, shape⟩ := List.exists_cons_of_ne_nil named.written
    have read := attributeAt_eq named value space
    have starts : (Attribute.written (some (label, value)) ++ space).dropWhile Xml.isSpace =
        label.toList ++ '=' :: '"' :: ((escape value).toList ++ '"' :: space) := by
      have visible := isSpace_of_isPlain (named.plain (shape ▸ List.mem_cons_self))
      rw [Attribute.written_some, List.cons_append, List.dropWhile_cons_of_pos (by rfl), shape,
        List.cons_append, List.cons_append, List.dropWhile_cons_of_neg (by simp [visible])]
      simp
    rw [shape] at read starts
    rw [attributesWithin, starts]
    change (attributeAt _).bind _ = _
    rw [read]
    simp [attributesWithin_blank blank, Attribute.pairs, shape]

/-- Behind the name of a tag there is white space, or nothing. -/
theorem written_starts (given : Attribute) {space : List Char}
    (blank : ∀ character ∈ space, Xml.isSpace character = true) :
    given.written ++ space = [] ∨
      ∃ first rest, given.written ++ space = first :: rest ∧ Xml.isSpace first = true := by
  rcases given with _ | ⟨label, value⟩
  · rcases space with _ | ⟨first, rest⟩
    · exact .inl rfl
    · exact .inr ⟨first, rest, rfl, blank first List.mem_cons_self⟩
  · rw [Attribute.written_some]
    exact .inr ⟨' ', _, rfl, rfl⟩

theorem readTag_eq (named : IsName name) (labelled : given.IsLabelled) {space : List Char}
    (blank : ∀ character ∈ space, Xml.isSpace character = true) :
    readTag (name.toList ++ (given.written ++ space)) = some (name.toList, given.pairs) := by
  have visible : ∀ character ∈ name.toList, (!Xml.isSpace character) = true := by
    intro character member
    simp [isSpace_of_isPlain (named.plain member)]
  obtain ⟨fuel, size⟩ :
      ∃ fuel, (name.toList ++ (given.written ++ space)).length + 1 = fuel + 2 := by
    have written := List.length_pos_iff.2 named.written
    rw [List.length_append]
    exact ⟨name.toList.length + (given.written ++ space).length - 1, by omega⟩
  have behind : (given.written ++ space).dropWhile (fun character => !Xml.isSpace character) =
      given.written ++ space ∧
      (given.written ++ space).takeWhile (fun character => !Xml.isSpace character) = [] := by
    rcases written_starts given blank with nothing | ⟨first, rest, starts, space⟩
    · rw [nothing]
      exact ⟨rfl, rfl⟩
    · rw [starts]
      simp [space]
  rw [readTag, Event.tagName, List.takeWhile_append_of_pos visible,
    List.dropWhile_append_of_pos visible, behind.1, behind.2, size,
    attributesWithin_written labelled blank, List.append_nil]
  rfl

end WorkflowBundle.Bundle
