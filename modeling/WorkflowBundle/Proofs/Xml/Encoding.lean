/-
This file shows that escaped texts and sections of character data are read as they were.
-/

import WorkflowBundle.Proofs.Xml.Document
import WorkflowBundle.Xml.Escape

namespace WorkflowBundle.Xml

theorem decodeFrom_escapeCharacter (character : Char) (rest : List Char) :
    decodeFrom 0 (escapeCharacter character ++ rest) =
      (decodeFrom 0 rest).map (character :: ·) := by
  fun_cases escapeCharacter character with
  | case6 _ _ _ ampersand =>
      change decodeFrom 0 (character :: rest) = _
      rw [decodeFrom, if_neg ampersand]
  | _ => simp [decodeFrom, entities]

/-- An escaped text is decoded to itself. -/
theorem decode_escape (text : String) : decode (escape text).toList = some text.toList := by
  have written (characters : List Char) :
      decodeFrom 0 (characters.flatMap escapeCharacter) = some characters := by
    induction characters with
    | nil => rfl
    | cons character rest inductionHypothesis =>
        rw [List.flatMap_cons, decodeFrom_escapeCharacter, inductionHypothesis]
        rfl
  rw [decode, escape, String.toList_ofList, written]

/-- An escaped character has no opening bracket and no quote. -/
theorem all_escapeCharacter (written : Char) :
    (escapeCharacter written).all (fun character => character != '<' && character != '"') =
      true := by
  fun_cases escapeCharacter written with
  | case6 _ bracket _ _ _ quote =>
      have differs : (written != '<') = true ∧ (written != '"') = true :=
        ⟨bne_iff_ne.2 bracket, bne_iff_ne.2 quote⟩
      simp [differs]
  | _ => rfl

theorem plain_of_mem_escape {text : String} {character : Char}
    (member : character ∈ (escape text).toList) : character ≠ '<' ∧ character ≠ '"' := by
  rw [escape, String.toList_ofList, List.mem_flatMap] at member
  obtain ⟨written, -, inside⟩ := member
  have plain := List.all_eq_true.1 (all_escapeCharacter written) character inside
  simpa using plain

/-- These characters end a section. -/
def closing : List Char := sectionEnd.toList

/-- An end mark is divided by the end of a section and the start of another one. -/
def division : List Char := ("]]" ++ sectionEnd ++ sectionStart ++ ">").toList

/-- A text stands in sections with its end marks divided. -/
def divided (text : List Char) : List Char :=
  Text.replaceFrom closing division 0 text

theorem divided_cons {character : Char} {rest : List Char}
    (apart : closing.isPrefixOf (character :: rest) = false) :
    divided (character :: rest) = character :: divided rest := by
  rw [divided, Text.replaceFrom, if_neg (by simp [apart])]
  rfl

theorem divided_closing (rest : List Char) :
    divided (closing ++ rest) = division ++ divided rest := by
  change Text.replaceFrom closing division 0 (']' :: ']' :: '>' :: rest) = _
  rw [Text.replaceFrom, if_pos (by rfl)]
  rfl

/-- A divided text has no end mark at its start, also together with the end of its section. -/
theorem isPrefixOf_divided {character : Char} {text : List Char} (rest : List Char)
    (apart : closing.isPrefixOf (character :: text) = false) :
    closing.isPrefixOf (character :: (divided text ++ closing ++ rest)) = false := by
  -- The third character of a mark is no square bracket, and the mark divides into such brackets.
  have bracket (first : Char) (others : List Char) :
      closing.isPrefixOf (character :: first :: ']' :: others) = false := by
    simp [closing, sectionEnd, List.isPrefixOf]
  rcases text with _ | ⟨first, text⟩
  · exact bracket ']' ('>' :: rest)
  · cases starts : closing.isPrefixOf (first :: text) with
    | true =>
        obtain ⟨after, same⟩ := List.isPrefixOf_iff_prefix.1 starts
        rw [← same, divided_closing]
        exact bracket ']' _
    | false =>
        rw [divided_cons starts]
        rcases text with _ | ⟨second, text⟩
        · exact bracket first (']' :: '>' :: rest)
        · cases next : closing.isPrefixOf (second :: text) with
          | true =>
              obtain ⟨after, same⟩ := List.isPrefixOf_iff_prefix.1 next
              rw [← same, divided_closing]
              exact bracket first _
          | false =>
              rw [divided_cons next]
              simpa [closing, sectionEnd, List.isPrefixOf] using apart

/-- A section lasts until the end of the text, or divides its first end mark. -/
theorem cut?_divided (text : List Char) :
    (∀ rest, Text.cut? closing (divided text ++ closing ++ rest) = some (text, rest)) ∨
      ∃ before after, text = before ++ closing ++ after ∧
        ∀ rest, Text.cut? closing (divided text ++ closing ++ rest) =
          some (before ++ [']', ']'],
            sectionStart.toList ++ '>' :: (divided after ++ closing ++ rest)) := by
  induction text with
  | nil => exact .inl fun rest => rfl
  | cons character text inductionHypothesis =>
      cases starts : closing.isPrefixOf (character :: text) with
      | true =>
          obtain ⟨after, same⟩ := List.isPrefixOf_iff_prefix.1 starts
          rw [← same, divided_closing]
          exact .inr ⟨[], after, rfl, fun rest => rfl⟩
      | false =>
          have kept (rest : List Char) :
              Text.cut? closing (divided (character :: text) ++ closing ++ rest) =
                (Text.cut? closing (divided text ++ closing ++ rest)).map
                  fun parts => (character :: parts.1, parts.2) := by
            rw [divided_cons starts, List.cons_append, List.cons_append, Text.cut?,
              isPrefixOf_divided rest starts]
            rfl
          rcases inductionHypothesis with whole | ⟨before, after, rfl, first⟩
          · left
            intro rest
            rw [kept, whole]
            rfl
          · right
            refine ⟨character :: before, after, rfl, fun rest => ?_⟩
            rw [kept, first]
            rfl

/-- The markup of a section lasts until the first end mark. -/
theorem ofMarkup_section (markup : List Char) :
    Event.ofMarkup ("![CDATA[".toList ++ markup) =
      Event.finish .openSection .section (Text.cut? closing markup) := rfl

/-- A section is one event up to its first end mark. -/
theorem events?_section {markup content rest : List Char}
    (cut : Text.cut? closing markup = some (content, rest)) :
    events? (sectionStart.toList ++ markup) = (events? rest).map (.section content :: ·) := by
  have read : Event.ofMarkup ("![CDATA[".toList ++ markup) = .ok (.section content, rest) := by
    rw [ofMarkup_section, cut]
    rfl
  exact events?_markup read

/-- The closing bracket of a divided end mark starts no other mark. -/
theorem cut?_head {head : List Char} (marked : head = [] ∨ head = ['>']) (text : List Char) :
    Text.cut? closing (head ++ text) =
      (Text.cut? closing text).map fun (before, after) => (head ++ before, after) := by
  rcases marked with rfl | rfl
  · cases cut : Text.cut? closing text <;> simp [cut]
  · rfl

/-- A divided text is read as sections that make up the text, also behind the closing bracket of an
end mark. -/
theorem events?_divided {head : List Char} (marked : head = [] ∨ head = ['>'])
    (text : List Char) :
    ∃ parts : List (List Char), parts.flatten = head ++ text ∧
      ∀ rest, events? (sectionStart.toList ++ (head ++ (divided text ++ closing ++ rest))) =
        (events? rest).map (parts.map .section ++ ·) := by
  induction size : text.length using Nat.strongRecOn generalizing head text with
  | _ length inductionHypothesis =>
      rcases cut?_divided text with whole | ⟨before, after, rfl, first⟩
      · refine ⟨[head ++ text], by simp, fun rest => ?_⟩
        apply events?_section
        rw [cut?_head marked, whole]
        rfl
      · have shorter : after.length < length := by
          have three : closing.length = 3 := rfl
          simp only [List.length_append, three] at size
          omega
        obtain ⟨parts, joined, read⟩ := inductionHypothesis _ shorter (.inr rfl) after rfl
        refine ⟨(head ++ (before ++ [']', ']'])) :: parts, ?_, fun rest => ?_⟩
        · rw [List.flatten_cons, joined]
          simp [closing, sectionEnd]
        · have cut : Text.cut? closing (head ++ (divided (before ++ closing ++ after) ++ closing ++
              rest)) = some (head ++ (before ++ [']', ']']),
                sectionStart.toList ++ '>' :: (divided after ++ closing ++ rest)) := by
            rw [cut?_head marked, first]
            rfl
          have continued := read rest
          rw [List.singleton_append] at continued
          rw [events?_section cut, continued, Option.map_map]
          rfl

/-- A text in sections is read as sections that make up the text. -/
theorem events?_sections (text : String) :
    ∃ parts : List (List Char), parts.flatten = text.toList ∧
      ∀ rest, events? ((sections text).toList ++ rest) =
        (events? rest).map (parts.map .section ++ ·) := by
  obtain ⟨parts, joined, read⟩ := events?_divided (.inl rfl) text.toList
  refine ⟨parts, joined, fun rest => ?_⟩
  have written : (sections text).toList ++ rest =
      sectionStart.toList ++ ([] ++ (divided text.toList ++ closing ++ rest)) := by
    simp only [sections, Text.replace, String.toList_append, String.toList_ofList,
      List.append_assoc, List.nil_append]
    rfl
  rw [written, read]

end WorkflowBundle.Xml
