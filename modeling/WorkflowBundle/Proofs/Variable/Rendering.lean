/-
This file says which placeholders the written values have: numbers have none, and a list or a
mapping that is written as JSON has those of its strings.
-/

import WorkflowBundle.Proofs.Decimal
import WorkflowBundle.Proofs.Variable.Placeholder
import WorkflowBundle.Variable.FromYaml

namespace WorkflowBundle

namespace Decimal

theorem not_mem_toString_int (number : Int) : '\x7b' ∉ (toString number).toList := by
  intro member
  rcases mem_toString_int member with digit | sign
  · nomatch digit
  · nomatch sign

/-- A number is written without opening braces in a style whose own texts have none. -/
theorem Style.not_mem_write {style : Style} (number : Binary64)
    (plain : ∀ text ∈ [style.wholeEnd, style.positiveExponent, style.nan, style.infinite,
      style.negativeInfinite], '\x7b' ∉ text.toList) : '\x7b' ∉ (style.write number).toList := by
  intro member
  rcases mem_write member with digit | mark | ⟨text, own, inside⟩
  · nomatch digit
  · exact absurd mark (by decide)
  · exact plain text own inside

end Decimal

namespace Json

mutual

/-- The strings of a value are its texts and the names of its fields, in order. -/
def strings : Json → List String
  | .string value => [value]
  | .array items => stringsOfItems items
  | .object fields => stringsOfFields fields
  | _ => []

def stringsOfItems : List Json → List String
  | [] => []
  | item :: rest => strings item ++ stringsOfItems rest

def stringsOfFields : List (String × Json) → List String
  | [] => []
  | (name, value) :: rest => name :: (strings value ++ stringsOfFields rest)

end

/-- Compact parts stand between the brackets with commas between them. -/
theorem toList_enclose (depth : Nat) {opening closing : String} {first last : Char}
    (opened : opening.toList = [first]) (closed : closing.toList = [last]) (parts : List String) :
    (enclose .compact depth opening closing parts).toList =
      first :: ((Text.join "," parts).toList ++ [last]) := by
  cases parts with
  | nil => simp [enclose, Text.join, opened, closed]
  | cons part parts => simp [enclose, Layout.compact, opened, closed]

end Json

namespace Variable

/-- Name characters come behind the control characters. -/
theorem not_lt_of_isNameCharacter {character : Char} (named : isNameCharacter character = true) :
    ¬ character.toNat < 0x20 := by
  have behind {least : UInt32} (above : least ≤ character.val) (printed : 0x20 ≤ least.toNat) :
      ¬ character.toNat < 0x20 :=
    Nat.not_lt.2 (Nat.le_trans printed (UInt32.le_iff_toNat_le.1 above))
  rcases Bool.or_eq_true_iff.1 named with other | hyphen
  · rcases Bool.or_eq_true_iff.1 other with alphanumeric | underscore
    · rcases Bool.or_eq_true_iff.1 alphanumeric with letter | digit
      · rcases Bool.or_eq_true_iff.1 letter with upper | lower
        · exact behind (of_decide_eq_true upper).1 (by decide)
        · exact behind (of_decide_eq_true (Bool.and_eq_true_iff.1 lower).1) (by decide)
      · exact behind (of_decide_eq_true (Bool.and_eq_true_iff.1 digit).1) (by decide)
    · rw [beq_iff_eq.1 underscore]
      decide
  · rw [beq_iff_eq.1 hyphen]
    decide

/-- A character interrupts a placeholder when it is no name character and no brace. -/
def Interrupts (character : Char) : Prop :=
  isNameCharacter character = false ∧ character ≠ '\x7b' ∧ character ≠ '\x7d'

instance : DecidablePred Interrupts :=
  fun character => inferInstanceAs (Decidable (isNameCharacter character = false ∧ _))

/-- A control character interrupts a placeholder. -/
theorem interrupts_of_lt {character : Char} (control : character.toNat < 0x20) :
    Interrupts character := by
  refine ⟨?_, ?_, ?_⟩
  · exact Bool.eq_false_iff.2 fun named => not_lt_of_isNameCharacter named control
  · rintro rfl
    exact absurd control (by decide)
  · rintro rfl
    exact absurd control (by decide)

theorem hexDigit_ne (value : Nat) : Json.hexDigit value ≠ '\x7b' := by
  have digits : ∀ value < 16, (Nat.toDigits 16 value).headD '0' ≠ '\x7b' := by decide
  exact digits _ (Nat.mod_lt _ (by decide))

/-- A character is written as it is, or it interrupts a placeholder and is written with a backslash
and no opening brace. -/
theorem escape_cases (character : Char) :
    Json.escape character = [character] ∨
      Interrupts character ∧ ∃ others, Json.escape character = '\\' :: others ∧
        '\x7b' ∉ others := by
  unfold Json.escape
  iterate 7
    split
    · rename_i same
      obtain rfl := beq_iff_eq.1 same
      exact .inr ⟨by decide, _, rfl, by decide⟩
  split
  · rename_i control
    refine .inr ⟨interrupts_of_lt control, _, rfl, ?_⟩
    simp [(hexDigit_ne _).symm]
  · exact .inl rfl

/-- A run of name characters is written as it is. -/
theorem flatMap_escape_of_clean {name : List Char}
    (clean : ∀ character ∈ name, isNameCharacter character = true) :
    name.flatMap Json.escape = name := by
  induction name with
  | nil => rfl
  | cons character name inductionHypothesis =>
      obtain ⟨named, later⟩ := List.forall_mem_cons.1 clean
      rcases escape_cases character with same | ⟨⟨outside, -⟩, -⟩
      · rw [List.flatMap_cons, same, inductionHypothesis later, List.singleton_append]
      · nomatch named.symm.trans outside

section Escaped

variable {next : Char} (interrupts : Interrupts next)

include interrupts

/-- An opening brace in front of an escaped text that is interrupted starts the placeholder that it
starts in front of the text itself. -/
theorem placeholder?_escaped (text rest : List Char) :
    placeholder? ('\x7b' :: (text.flatMap Json.escape ++ next :: rest)) =
      placeholder? ('\x7b' :: text) := by
  rcases clean_or_exists_run text with clean | ⟨name, stopping, behind, rfl, clean, stop⟩
  · rw [flatMap_escape_of_clean clean, placeholder?_run clean interrupts.1,
      placeholder?_of_clean clean, if_neg fun both => interrupts.2.2 both.2]
  · rw [List.flatMap_append, flatMap_escape_of_clean clean, List.flatMap_cons,
      placeholder?_run clean stop, List.append_assoc]
    rcases escape_cases stopping with same | ⟨⟨-, -, other⟩, others, escaped, -⟩
    · rw [same, List.append_assoc, List.singleton_append, placeholder?_run clean stop]
    · rw [escaped, List.append_assoc, List.cons_append, placeholder?_run clean (by decide),
        if_neg fun both => absurd both.2 (by decide), if_neg fun both => other both.2]

/-- An escaped text that is interrupted has the placeholders of the text itself. -/
theorem placeholdersFrom_escaped (text rest : List Char) :
    placeholdersFrom (text.flatMap Json.escape ++ next :: rest) =
      placeholdersFrom text ++ placeholdersFrom (next :: rest) := by
  induction text with
  | nil => rfl
  | cons character text inductionHypothesis =>
      rcases escape_cases character with same | ⟨⟨-, other, -⟩, others, escaped, unopened⟩
      · rw [List.flatMap_cons, same, List.append_assoc, List.singleton_append, placeholdersFrom,
          placeholdersFrom, inductionHypothesis, List.append_assoc]
        by_cases opens : character = '\x7b'
        · rw [opens, placeholder?_escaped interrupts]
        · rw [placeholder?_of_ne opens, placeholder?_of_ne opens]
      · have backslash : '\x7b' ∉ '\\' :: others :=
          List.not_mem_cons_of_ne_of_not_mem (by decide) unopened
        rw [List.flatMap_cons, escaped, List.append_assoc,
          placeholdersFrom_append (not_leavesOpen_of_not_mem backslash),
          placeholdersFrom_of_not_mem backslash, List.nil_append, inductionHypothesis,
          placeholdersFrom_cons_of_ne other]

end Escaped

/-- A quoted string shows the string. -/
theorem shows_quote (string : String) : Shows [string] (Json.quote string).toList := by
  have quoted : Interrupts '"' := by decide
  have written : (Json.quote string).toList =
      '"' :: (string.toList.flatMap Json.escape ++ ['"']) := by
    simp [Json.quote]
  rw [written]
  refine ⟨not_leavesOpen_concat ('"' :: string.toList.flatMap Json.escape) quoted.1 quoted.2.1, ?_⟩
  rw [placeholdersFrom_cons_of_ne quoted.2.1, placeholdersFrom_escaped quoted,
    placeholdersFrom_cons_of_ne quoted.2.1, List.flatMap_singleton]
  exact List.append_nil _

/-- A part in front of joined parts shows what it shows, and they show what they show. -/
theorem Shows.join_cons {strings others : List String} {part : String} {parts : List String}
    (first : Shows strings part.toList) (rest : Shows others (Text.join "," parts).toList) :
    Shows (strings ++ others) (Text.join "," (part :: parts)).toList := by
  cases parts with
  | nil =>
      have nothing : others.flatMap (fun string => placeholdersFrom string.toList) = [] :=
        rest.placeholders.symm
      have alone : Text.join "," [part] = part := String.intercalate_singleton
      refine ⟨alone ▸ first.closed, ?_⟩
      rw [alone, first.placeholders, List.flatMap_append, nothing, List.append_nil]
  | cons next parts =>
      have comma : Shows [] ",".toList := shows_of_not_mem (by decide)
      have together := (first.append comma).append rest
      rw [List.append_nil, ← String.toList_append, ← String.toList_append] at together
      rwa [Text.join, String.intercalate_cons_cons]

/-- A bracketed text shows what the text shows. -/
theorem Shows.inBrackets {strings : List String} {text : List Char} (inside : Shows strings text) :
    Shows strings ('[' :: (text ++ [']'])) := by
  have opening : Shows [] ['['] := shows_of_not_mem (by decide)
  have closing : Shows [] [']'] := shows_of_not_mem (by decide)
  simpa using opening.append (inside.append closing)

/-- A text in braces shows what the text shows if it starts with no name. -/
theorem Shows.inBraces {strings : List String} {text : List Char} (inside : Shows strings text)
    (starts : text = [] ∨ ∃ rest, text = '"' :: rest) :
    Shows strings ('\x7b' :: (text ++ ['\x7d'])) := by
  have closing : Shows [] ['\x7d'] := shows_of_not_mem (by decide)
  have unnamed : placeholder? ('\x7b' :: (text ++ ['\x7d'])) = none := by
    have nothing : ∀ character ∈ ([] : List Char), isNameCharacter character = true :=
      List.forall_mem_nil _
    rcases starts with rfl | ⟨rest, rfl⟩
    · exact placeholder?_run nothing (by decide) []
    · exact placeholder?_run nothing (by decide) (rest ++ ['\x7d'])
  refine ⟨not_leavesOpen_concat ('\x7b' :: text) (by decide) (by decide), ?_⟩
  rw [placeholdersFrom, unnamed, (inside.append closing).placeholders, List.append_nil]
  rfl

/-- Written fields start with a quotation mark. -/
theorem writeFields_starts (depth : Nat) (fields : List (String × Json)) :
    (Text.join "," (Json.writeFields .compact depth fields)).toList = [] ∨
      ∃ rest, (Text.join "," (Json.writeFields .compact depth fields)).toList = '"' :: rest := by
  cases fields with
  | nil => exact .inl rfl
  | cons field rest =>
      obtain ⟨name, value⟩ := field
      right
      rw [Json.writeFields, Text.join, String.append_assoc, String.intercalate_cons_append,
        String.toList_append, Json.quote, String.toList_ofList]
      exact ⟨_, rfl⟩

/-- Written fields show the names and what the values show. -/
theorem shows_writeFields_cons {strings others : List String} {depth : Nat} (name : String)
    {value : Json} {rest : List (String × Json)}
    (content : Shows strings (value.writeAt .compact depth).toList)
    (behind : Shows others (Text.join "," (Json.writeFields .compact depth rest)).toList) :
    Shows (name :: (strings ++ others))
      (Text.join "," (Json.writeFields .compact depth ((name, value) :: rest))).toList := by
  have colon : Shows [] Json.Layout.compact.afterName.toList := shows_of_not_mem (by decide)
  have field := ((shows_quote name).append colon).append content
  rw [List.append_nil, ← String.toList_append, ← String.toList_append] at field
  rw [Json.writeFields]
  exact field.join_cons behind

theorem shows_join_nil : Shows [] (Text.join "," []).toList :=
  shows_of_not_mem List.not_mem_nil

/-- A scalar that is no string shows nothing. -/
theorem shows_writeAt_of_not_mem {json : Json} {depth : Nat} (text : String)
    (written : json.writeAt .compact depth = text) (unopened : '\x7b' ∉ text.toList) :
    Shows [] (json.writeAt .compact depth).toList :=
  written ▸ shows_of_not_mem unopened

mutual

/-- A YAML value that is JSON is written with the placeholders of its strings. -/
theorem shows_writeAt (yaml : Yaml) {json : Json} (depth : Nat)
    (converted : yaml.toJson? = some json) :
    Shows json.strings (json.writeAt .compact depth).toList := by
  cases yaml with
  | null =>
      obtain rfl := Option.some.inj converted
      exact shows_writeAt_of_not_mem "null" rfl (by decide)
  | boolean value =>
      obtain rfl := Option.some.inj converted
      cases value with
      | false => exact shows_writeAt_of_not_mem "false" rfl (by decide)
      | true => exact shows_writeAt_of_not_mem "true" rfl (by decide)
  | integer value =>
      obtain rfl := Option.some.inj converted
      exact shows_writeAt_of_not_mem _ rfl (Decimal.not_mem_toString_int value)
  | binary value =>
      obtain rfl := Option.some.inj converted
      have written := @Decimal.Style.not_mem_write Json.numberStyle value (by decide)
      rw [Json.ofBinary64]
      split
      · exact shows_writeAt_of_not_mem _ rfl written
      · exact shows_writeAt_of_not_mem "null" rfl (by decide)
  | string text =>
      obtain rfl := Option.some.inj converted
      exact shows_quote text
  | sequence items =>
      obtain ⟨jsons, each, rfl⟩ := Option.map_eq_some_iff.1 converted
      rw [Json.strings, Json.writeAt, Json.toList_enclose _ rfl rfl]
      exact (shows_writeItems items (depth + 1) each).inBrackets
  | mapping entries =>
      obtain ⟨fields, each, rfl⟩ := Option.map_eq_some_iff.1 converted
      rw [Json.strings, Json.writeAt, Json.toList_enclose _ rfl rfl]
      exact (shows_writeFields entries (depth + 1) each).inBraces (writeFields_starts _ _)
  | tagged tag value =>
      obtain ⟨inner, inside, rfl⟩ := Option.map_eq_some_iff.1 converted
      have content := shows_writeAt value (depth + 1) inside
      have behind : Shows [] (Text.join "," (Json.writeFields .compact (depth + 1) [])).toList :=
        shows_join_nil
      have field := shows_writeFields_cons (Yaml.tagText tag) content behind
      rw [Json.strings, Json.stringsOfFields, Json.stringsOfFields, Json.writeAt,
        Json.toList_enclose _ rfl rfl]
      exact field.inBraces (writeFields_starts _ _)

/-- The items of a sequence are written with the placeholders of their strings. -/
theorem shows_writeItems (items : List Yaml) {jsons : List Json} (depth : Nat)
    (converted : Yaml.itemsToJson? items = some jsons) :
    Shows (Json.stringsOfItems jsons)
      (Text.join "," (Json.writeItems .compact depth jsons)).toList := by
  cases items with
  | nil =>
      obtain rfl := Option.some.inj converted
      exact shows_join_nil
  | cons item rest =>
      simp only [Yaml.itemsToJson?, Option.bind_eq_bind, Option.bind_eq_some_iff,
        Option.some.injEq] at converted
      obtain ⟨first, here, others, later, rfl⟩ := converted
      rw [Json.stringsOfItems, Json.writeItems]
      exact (shows_writeAt item depth here).join_cons (shows_writeItems rest depth later)

/-- The entries of a mapping are written with the placeholders of their names and strings. -/
theorem shows_writeFields (entries : List (Yaml × Yaml)) {fields : List (String × Json)}
    (depth : Nat) (converted : Yaml.fieldsToJson? entries = some fields) :
    Shows (Json.stringsOfFields fields)
      (Text.join "," (Json.writeFields .compact depth fields)).toList := by
  cases entries with
  | nil =>
      obtain rfl := Option.some.inj converted
      exact shows_join_nil
  | cons entry rest =>
      obtain ⟨key, value⟩ := entry
      simp only [Yaml.fieldsToJson?, Option.bind_eq_bind, Option.bind_eq_some_iff,
        Option.some.injEq] at converted
      obtain ⟨name, -, first, here, others, later, rfl⟩ := converted
      rw [Json.stringsOfFields]
      exact shows_writeFields_cons name (shows_writeAt value depth here)
        (shows_writeFields rest depth later)

end

end Variable

end WorkflowBundle
