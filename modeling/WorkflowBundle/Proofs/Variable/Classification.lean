/-
This file says which values are classified, that is unresolved exactly if their text has a
placeholder: strings and scalars are, an expansion keeps that, and lists and mappings are where none
of their strings has a placeholder.
-/

import WorkflowBundle.Proofs.Variable.Rendering
import WorkflowBundle.Proofs.Variable.Solution

namespace WorkflowBundle

namespace Yaml

/-- The JSON value of a sequence or a mapping, whatever its tag. -/
def collection? (yaml : Yaml) : Option Json :=
  match yaml.untagged with
  | .sequence items => toJson? (.sequence items)
  | .mapping entries => toJson? (.mapping entries)
  | _ => none

/-- The inner strings of a sequence or a mapping are those of its JSON value, and a scalar has
none. -/
def innerStrings (yaml : Yaml) : List String :=
  (yaml.collection?.map Json.strings).getD []

end Yaml

namespace Variable

/-- A value is classified when it is unresolved exactly if its text has a placeholder. -/
def Value.IsClassified (value : Value) : Prop :=
  value.isUnresolved = hasPlaceholder value.render

instance : DecidablePred Value.IsClassified :=
  fun value => inferInstanceAs (Decidable (value.isUnresolved = hasPlaceholder value.render))

theorem isClassified_ofText (text : String) : (Value.ofText text).IsClassified := by
  cases holds : hasPlaceholder text <;>
    simp [Value.IsClassified, Value.ofText, Value.isUnresolved, Value.render, holds]

/-- A text without opening braces has no placeholder. -/
theorem hasPlaceholder_of_not_mem {text : String} (unopened : '\x7b' ∉ text.toList) :
    hasPlaceholder text = false := by
  rw [hasPlaceholder, placeholdersFrom_of_not_mem unopened]
  rfl

/-- Truth values and numbers are classified. -/
theorem isClassified_of_text? {value : Value} (scalar : value.text? = none) :
    value.IsClassified := by
  have plain : hasPlaceholder value.render = false := by
    apply hasPlaceholder_of_not_mem
    cases value with
    | boolean value => cases value <;> decide
    | integer value => exact Decimal.not_mem_toString_int value
    | binary value => exact @Decimal.Style.not_mem_write Value.numberStyle value (by decide)
    | text _ | unresolved _ => nomatch scalar
  rw [Value.IsClassified, plain]
  cases value with
  | unresolved _ => nomatch scalar
  | _ => rfl

theorem isClassified_text_iff {text : String} :
    (Value.text text).IsClassified ↔ hasPlaceholder text = false :=
  eq_comm

/-- A written JSON value has no placeholder if and only if none of its strings has one. -/
theorem hasPlaceholder_write_iff {yaml : Yaml} {json : Json}
    (converted : yaml.toJson? = some json) :
    hasPlaceholder json.write = false ↔
      ∀ string ∈ json.strings, hasPlaceholder string = false := by
  have shown := (shows_writeAt yaml 0 converted).placeholders
  simp [hasPlaceholder, Json.write, shown]

/-- A value of YAML is the text of a list or a mapping, or a classified value of a scalar. -/
theorem ofYaml?_cases {yaml : Yaml} {value : Value} (made : Value.ofYaml? yaml = some value) :
    (∃ content json, Yaml.toJson? content = some json ∧ yaml.collection? = some json ∧
      value = .text json.write) ∨
      yaml.collection? = none ∧ value.IsClassified := by
  fun_induction Value.ofYaml? yaml with
  | case1 => nomatch made
  | case2 | case3 | case4 =>
      obtain rfl := Option.some.inj made
      exact .inr ⟨rfl, isClassified_of_text? (by first | rfl | split <;> rfl)⟩
  | case5 content =>
      obtain rfl := Option.some.inj made
      exact .inr ⟨rfl, isClassified_ofText content⟩
  | case6 tag inner inductionHypothesis => exact inductionHypothesis made
  | case7 | case8 =>
      obtain ⟨json, converted, rfl⟩ := Option.map_eq_some_iff.1 made
      exact .inl ⟨_, json, converted, converted, rfl⟩

/-- The value of YAML is classified if and only if no inner string has a placeholder. -/
theorem isClassified_ofYaml?_iff {yaml : Yaml} {value : Value}
    (made : Value.ofYaml? yaml = some value) :
    value.IsClassified ↔ ∀ string ∈ yaml.innerStrings, hasPlaceholder string = false := by
  rcases ofYaml?_cases made with ⟨content, json, converted, collected, rfl⟩ | ⟨scalar, classified⟩
  · rw [isClassified_text_iff, hasPlaceholder_write_iff converted, Yaml.innerStrings, collected]
    rfl
  · simp [Yaml.innerStrings, scalar, classified]

/-- Laying a mapping over a table adds the values of its entries. -/
theorem find?_overlayYaml {table : Table} {mapping : Yaml.Mapping} {name : String} {value : Value}
    (found : (table.overlayYaml mapping).find? name = some value) :
    table.find? name = some value ∨
      ∃ key yaml, (key, yaml) ∈ mapping ∧ key.text? = some name ∧
        Value.ofYaml? yaml = some value := by
  rw [Table.overlayYaml, Dictionary.find?_foldl_insert, Option.or_eq_some_iff] at found
  rcases found with laid | ⟨-, kept⟩
  · have member := List.mem_reverse.1 (Dictionary.mem_of_lookup laid)
    obtain ⟨⟨key, yaml⟩, inside, made⟩ := List.mem_filterMap.1 member
    simp only [Option.bind_eq_bind, Option.bind_eq_some_iff, Option.some.injEq, Prod.mk.injEq,
      entry?] at made
    obtain ⟨_, named, _, valued, rfl, rfl⟩ := made
    exact .inr ⟨key, yaml, inside, named, valued⟩
  · exact .inl kept

/-- An expanded value is classified if and only if the value was unresolved or classified. -/
theorem isClassified_filledFrom_iff {result : Table} {value : Value} :
    (value.filledFrom result).IsClassified ↔ value.isUnresolved = true ∨ value.IsClassified := by
  cases value with
  | unresolved raw => simp [Value.filledFrom, Value.isUnresolved, isClassified_ofText]
  | _ => simp [Value.filledFrom, Value.isUnresolved]

/-- A value is given by a string or by YAML. -/
def Value.IsGiven (value : Value) : Prop :=
  (∃ text, value = .ofText text) ∨ ∃ yaml, Value.ofYaml? yaml = some value

/-- A table is given when its values are. -/
def Given (table : Table) : Prop :=
  ∀ name value, table.find? name = some value → value.IsGiven

/-- A table of the values of texts is given. -/
theorem given_ofList {entries : List (String × Value)}
    (each : ∀ entry ∈ entries, entry.2 = .ofText entry.2.render) : Given (.ofList entries) := by
  intro name value found
  rw [Dictionary.find?_ofList] at found
  exact .inl ⟨_, each (name, value) (List.mem_reverse.1 (Dictionary.mem_of_lookup found))⟩

theorem Given.expand {table result : Table} (given : Given table)
    (expanded : expand table = .ok result) : Given result := by
  intro name value found
  rw [find?_expand_eq expanded, Option.map_eq_some_iff] at found
  obtain ⟨old, bound, rfl⟩ := found
  cases old with
  | unresolved raw => exact .inl ⟨_, rfl⟩
  | _ => exact given name _ bound

/-- A table is built from texts and YAML values that are set and from mappings that are laid over
it, and it may be expanded at any time. -/
inductive Built : Table → Prop where
  | empty : Built ∅
  | text {table : Table} (name text : String) (built : Built table) :
      Built (table.insert name (.ofText text))
  | yaml {table : Table} (name : String) {yaml : Yaml} {value : Value}
      (made : Value.ofYaml? yaml = some value) (built : Built table) :
      Built (table.insert name value)
  | mapping {table : Table} (mapping : Yaml.Mapping) (built : Built table) :
      Built (table.overlayYaml mapping)
  | expansion {table result : Table} (expanded : expand table = .ok result)
      (built : Built table) : Built result

theorem Given.insert {table : Table} (given : Given table) (name : String) {value : Value}
    (new : value.IsGiven) : Given (table.insert name value) := by
  intro other found bound
  rw [Dictionary.find?_insert] at bound
  split at bound
  · exact Option.some.inj bound ▸ new
  · exact given other found bound

theorem Built.given {table : Table} (built : Built table) : Given table := by
  induction built with
  | empty =>
      intro name value found
      cases found
  | text name text _ inductionHypothesis => exact inductionHypothesis.insert name (.inl ⟨text, rfl⟩)
  | yaml name made _ inductionHypothesis => exact inductionHypothesis.insert name (.inr ⟨_, made⟩)
  | mapping mapping _ inductionHypothesis =>
      intro name value found
      rcases find?_overlayYaml found with kept | ⟨_, content, -, -, made⟩
      · exact inductionHypothesis name value kept
      · exact .inr ⟨content, made⟩
  | expansion expanded _ inductionHypothesis => exact inductionHypothesis.expand expanded

/-- A value of a table that is built is classified unless it is made of YAML with a placeholder in
some inner string. -/
theorem Built.isClassified_iff {table : Table} (built : Built table) {name : String} {value : Value}
    (found : table.find? name = some value) :
    value.IsClassified ↔ ∀ yaml, Value.ofYaml? yaml = some value →
      ∀ string ∈ yaml.innerStrings, hasPlaceholder string = false := by
  constructor
  · intro classified yaml made
    exact (isClassified_ofYaml?_iff made).1 classified
  · intro plain
    rcases built.given name value found with ⟨text, rfl⟩ | ⟨yaml, made⟩
    · exact isClassified_ofText text
    · exact (isClassified_ofYaml?_iff made).2 (plain yaml made)

/-- The value of a text is unresolved exactly if the text has a placeholder, and so is each value of
YAML other than the text of a list or a mapping with a placeholder in some inner string. A mapping
that is laid over a table adds such values only, and an expanded value is classified exactly if the
value before was classified or unresolved. So in a table that is built in any of these ways a value
is classified unless it is made of YAML with a placeholder in some inner string. -/
theorem classified_unless_inner_placeholder (text : String) (yaml : Yaml) (mapping : Yaml.Mapping)
    (table : Table) :
    (Value.ofText text).IsClassified ∧
    (∀ value, Value.ofYaml? yaml = some value →
      (value.IsClassified ↔ ∀ string ∈ yaml.innerStrings, hasPlaceholder string = false)) ∧
    (∀ name value, (table.overlayYaml mapping).find? name = some value →
      table.find? name = some value ∨
        ∃ key content, (key, content) ∈ mapping ∧ key.text? = some name ∧
          Value.ofYaml? content = some value ∧
          (value.IsClassified ↔
            ∀ string ∈ content.innerStrings, hasPlaceholder string = false)) ∧
    (∀ result, expand table = .ok result → ∀ name value, result.find? name = some value →
      ∃ old, table.find? name = some old ∧
        (value.IsClassified ↔ old.isUnresolved = true ∨ old.IsClassified)) ∧
    (Built table → ∀ name value, table.find? name = some value →
      (value.IsClassified ↔ ∀ source, Value.ofYaml? source = some value →
        ∀ string ∈ source.innerStrings, hasPlaceholder string = false)) := by
  refine ⟨isClassified_ofText text, fun value => isClassified_ofYaml?_iff, ?_, ?_,
    fun built name value => built.isClassified_iff⟩
  · intro name value found
    rcases find?_overlayYaml found with kept | ⟨key, content, member, named, made⟩
    · exact .inl kept
    · exact .inr ⟨key, content, member, named, made, isClassified_ofYaml?_iff made⟩
  · intro result expanded name value found
    rw [find?_expand_eq expanded, Option.map_eq_some_iff] at found
    obtain ⟨old, bound, rfl⟩ := found
    exact ⟨old, bound, isClassified_filledFrom_iff⟩

/-- A tagged mapping whose list names an owner by a placeholder. -/
def ownedTeam : Yaml :=
  .tagged "team" (.mapping [(.string "owners", .sequence [.string "ann", .string "\x7bowner\x7d"])])

/-- The placeholder of the owner stays in a resolved text. -/
theorem owned_team_is_not_classified :
    ∃ value, Value.ofYaml? ownedTeam = some value ∧ ¬ value.IsClassified := by
  obtain ⟨value, made⟩ := Option.isSome_iff_exists.1
    (show (Value.ofYaml? ownedTeam).isSome = true by decide +kernel)
  have inner : ¬ ∀ string ∈ ownedTeam.innerStrings, hasPlaceholder string = false := by
    decide +kernel
  obtain ⟨-, configured, -, -, -⟩ := classified_unless_inner_placeholder "" ownedTeam [] ∅
  exact ⟨value, made, fun classified => inner ((configured value made).1 classified)⟩

/-- A list with a placeholder in one of its items becomes a resolved text that has it. -/
theorem listed_placeholder_is_not_classified :
    ¬ ∀ yaml value, Value.ofYaml? yaml = some value → value.IsClassified := by
  intro classified
  have made : Value.ofYaml? (.sequence [.string "\x7bc\x7d"]) = some (.text "[\"\x7bc\x7d\"]") := by
    decide +kernel
  have refuted : ¬ (Value.text "[\"\x7bc\x7d\"]").IsClassified := by decide +kernel
  exact refuted (classified _ _ made)

end Variable

end WorkflowBundle
