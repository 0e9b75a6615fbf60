/-
This file says what the fields of a configuration are read as from nodes that represent their
values, and that a field that is left out has its default value.
-/

import Mathlib.Data.List.Forall2
import WorkflowBundle.Configuration.Reader
import WorkflowBundle.Configuration.Writer
import WorkflowBundle.Proofs.Dictionary
import WorkflowBundle.Proofs.Yaml.Representation

namespace WorkflowBundle

namespace Configuration

open Yaml (Node Read represented)

section Nodes

variable (document : Node) {depth : Nat} {node : Node}

/-- A node that represents a value is no alias. -/
theorem follow_of_represented {value : Yaml} (holds : represented value depth node = true) :
    Read.follow document node = pure node := by
  cases node with
  | scalar | sequence | mapping => rfl
  | _ => cases value <;> simp [represented, Node.standsFor, Node.tag?, Read.ownTag?] at holds

theorem readText_of_represented {text : String}
    (holds : represented (.string text) depth node = true) :
    readText document node = pure text := by
  obtain ⟨anchor, style, written, rfl, cases⟩ := Yaml.standsFor_cases holds
  obtain rfl : written = text := by
    rcases cases with ⟨-, -, resolves⟩ | ⟨-, same⟩
    · exact Yaml.eq_of_resolve?_string resolves
    · exact (Yaml.string.inj same).symm
  rfl

theorem readFlag_of_represented {value : Bool}
    (holds : represented (.boolean value) depth node = true) :
    readFlag document node = pure value := by
  obtain ⟨anchor, style, written, rfl, ⟨rfl, block, -⟩ | ⟨-, same⟩⟩ := Yaml.standsFor_cases holds
  · have word : [if value then "true" else "false"] = [written] := block
    obtain ⟨rfl, -⟩ := List.cons.inj word
    cases value <;> rfl
  · nomatch same

theorem readSize_of_represented {value : Nat}
    (holds : represented (.integer value) depth node = true) :
    readSize document node = pure value := by
  obtain ⟨anchor, style, written, rfl, ⟨rfl, block, resolves⟩ | ⟨-, same⟩⟩ :=
    Yaml.standsFor_cases holds
  · have digits : [toString value] = [written] := block
    obtain ⟨rfl, -⟩ := List.cons.inj digits
    obtain ⟨natural, fits⟩ := Yaml.natural?_of_resolve? resolves
    have kept : (Yaml.natural? (toString value).toList).filter (fun number =>
        number < Nat.pow 2 64 && mayHaveKind "int" none .plain) = some value := by
      rw [natural]
      simp [fits, mayHaveKind]
    rw [readSize, follow_of_represented document holds, pure_bind]
    simp only [kept]
  · nomatch same

/-- A node that represents null stands for an absent value. -/
theorem readOptional_of_null {α : Type} (read : Node → Read α)
    (holds : represented .null depth node = true) :
    readOptional document read node = pure none := by
  obtain ⟨anchor, style, written, rfl, ⟨rfl, block, -⟩ | ⟨-, same⟩⟩ := Yaml.standsFor_cases holds
  · have word : ["null"] = [written] := block
    obtain ⟨rfl, -⟩ := List.cons.inj word
    rfl
  · nomatch same

/-- A value is present when it is neither null nor below a tag. -/
structure IsPresent (value : Yaml) : Prop where
  notNull : value ≠ .null
  untagged : ∀ own content, value ≠ .tagged own content

theorem isPresent_string (text : String) : IsPresent (.string text) :=
  ⟨nofun, nofun⟩

theorem isPresent_mapping (mapping : Yaml.Mapping) : IsPresent (.mapping mapping) :=
  ⟨nofun, nofun⟩

/-- A node that represents a present value stands for what is read from it. -/
theorem readOptional_of_represented {α : Type} {value : Yaml} {result : α} {read : Node → Read α}
    (present : IsPresent value) (holds : represented value depth node = true)
    (reads : ∀ node, represented value depth node = true → read node = pure result) :
    readOptional document read node = pure (some result) := by
  have kept (node : Node) (holds : represented value depth node = true) :
      (read node >>= fun value => pure (some value)) = (pure (some result) : Read (Option α)) := by
    rw [reads node holds, pure_bind]
  rw [readOptional, follow_of_represented document holds, pure_bind]
  split
  · rename_i anchor tag text
    have stands := holds
    rw [Yaml.represented_scalar present.untagged] at stands
    obtain ⟨_, _, _, same, ⟨-, -, resolves⟩ | ⟨quoted, -⟩⟩ := Yaml.standsFor_cases stands
    · obtain ⟨rfl, rfl, rfl, rfl⟩ := Node.scalar.inj same
      have written : (text.isEmpty || Yaml.isNull text) = false := by
        cases empty : text.isEmpty || Yaml.isNull text with
        | false => rfl
        | true =>
            rw [Yaml.resolve?, if_pos empty] at resolves
            exact absurd (Option.some.inj resolves).symm present.notNull
      rw [if_neg nofun, Option.isNone_none, Bool.true_and, written, if_neg Bool.false_ne_true]
      -- The anchor is dropped, and what a scalar stands for does not depend on it.
      refine kept _ ?_
      rw [Yaml.represented_scalar present.untagged]
      exact stands
    · obtain ⟨-, -, rfl, -⟩ := Node.scalar.inj same
      exact absurd rfl quoted
  · exact kept node holds

/-- Nodes that represent strings in a sequence have their texts. -/
theorem mapM_readText_of_represented {texts : List String} {nodes : List Node}
    (holds : Yaml.representedItems (texts.map .string) depth nodes = true) :
    nodes.mapM (readText document) = pure texts := by
  induction texts generalizing nodes with
  | nil =>
      cases nodes with
      | nil => rfl
      | cons node rest => nomatch holds
  | cons text others inductionHypothesis =>
      cases nodes with
      | nil => nomatch holds
      | cons node rest =>
          rw [List.map_cons, Yaml.representedItems] at holds
          obtain ⟨first, later⟩ := Bool.and_eq_true_iff.1 holds
          rw [List.mapM_cons, readText_of_represented document first, pure_bind,
            inductionHypothesis later, pure_bind]

theorem readList_of_represented {texts : List String}
    (holds : represented (.sequence (texts.map .string)) depth node = true) :
    readList document (readText document) node = pure texts := by
  rw [readList, follow_of_represented document holds, pure_bind]
  obtain ⟨inner, anchor, nodes, rfl, rfl, each⟩ := Yaml.represented_sequence holds
  exact mapM_readText_of_represented document each

theorem readMapping_of_represented {mapping : Yaml.Mapping}
    (holds : represented (.mapping mapping) depth node = true) :
    readMapping document depth node = pure mapping := by
  rw [readMapping, follow_of_represented document holds, pure_bind]
  obtain ⟨inner, anchor, nodes, rfl, rfl, -⟩ := Yaml.represented_mapping holds
  simp only [Read.value_of_represented document _ holds, pure_bind]

end Nodes

/-- Named values are the fields of a mapping. -/
def fieldsToYaml (fields : List (String × Yaml)) : Yaml :=
  .mapping (fields.map fun field => yamlField field.1 field.2)

/-- A section lists all its fields, and only those that have a value are written. -/
def writtenFields (fields : List (String × Option Yaml)) : List (String × Yaml) :=
  fields.filterMap fun field => field.2.map fun value => (field.1, value)

/-- A field that is read is the node of a written field of the same name. -/
def ReadsField (depth : Nat) (written : String × Yaml) (read : String × Node) : Prop :=
  read.1 = written.1 ∧ represented written.2 depth read.2 = true

section Fields

variable (document : Node) {depth : Nat} {node : Node}

/-- A node that represents fields is read as a list of nodes for them. -/
theorem readFields_of_represented {fields : List (String × Yaml)}
    (holds : represented (fieldsToYaml fields) depth node = true) :
    ∃ inner nodes, depth = inner + 1 ∧ readFields document node = pure nodes ∧
      List.Forall₂ (ReadsField inner) fields nodes := by
  rw [readFields, follow_of_represented document holds, pure_bind]
  obtain ⟨inner, anchor, entries, rfl, rfl, -, each⟩ := Yaml.represented_mapping holds
  suffices read : ∃ nodes, (entries.mapM fun entry => do
      return (← readText document entry.1, entry.2)) = (pure nodes : Read _) ∧
        List.Forall₂ (ReadsField inner) fields nodes by
    obtain ⟨nodes, done, related⟩ := read
    exact ⟨inner, nodes, rfl, done, related⟩
  clear holds
  induction fields generalizing entries with
  | nil =>
      cases entries with
      | nil => exact ⟨[], rfl, .nil⟩
      | cons entry rest => nomatch each
  | cons field others inductionHypothesis =>
      cases entries with
      | nil => nomatch each
      | cons entry rest =>
          rw [List.map_cons, yamlField, Yaml.representedEntries] at each
          obtain ⟨here, later⟩ := Bool.and_eq_true_iff.1 each
          obtain ⟨name, value⟩ := Bool.and_eq_true_iff.1 here
          obtain ⟨nodes, done, related⟩ := inductionHypothesis _ later
          refine ⟨(field.1, entry.2) :: nodes, ?_, .cons ⟨rfl, value⟩ related⟩
          simp only [List.mapM_cons, readText_of_represented document name, pure_bind, done]

/-- Fields that are read are filtered by name as the written ones are. -/
theorem filter_of_readsField {fields : List (String × Yaml)} {nodes : List (String × Node)}
    (related : List.Forall₂ (ReadsField depth) fields nodes) (name : String) :
    List.Forall₂ (ReadsField depth) (fields.filter fun field => field.1 == name)
      (nodes.filter fun field => field.1 == name) := by
  induction related with
  | nil => exact .nil
  | @cons written read _ _ here _ inductionHypothesis =>
      rw [List.filter_cons, List.filter_cons, here.1]
      split
      · exact .cons here inductionHypothesis
      · exact inductionHypothesis

/-- Under one name a section writes the value of the field, or nothing. -/
theorem filter_writtenFields {fields : List (String × Option Yaml)}
    (distinct : (fields.map Prod.fst).Nodup) {name : String} {value : Option Yaml}
    (member : (name, value) ∈ fields) :
    (writtenFields fields).filter (fun field => field.1 == name) =
      value.toList.map fun given => (name, given) := by
  induction fields with
  | nil => nomatch member
  | cons field others inductionHypothesis =>
      obtain ⟨fresh, later⟩ := List.nodup_cons.1 distinct
      rcases List.mem_cons.1 member with rfl | behind
      · have other : (writtenFields others).filter (fun field => field.1 == name) = [] := by
          rw [List.filter_eq_nil_iff]
          intro field inside same
          obtain ⟨source, listed, written⟩ := List.mem_filterMap.1 inside
          obtain ⟨given, -, rfl⟩ := Option.map_eq_some_iff.1 written
          exact fresh (List.mem_map.2 ⟨source, listed, eq_of_beq same⟩)
        cases value with
        | none => exact other
        | some given =>
            change ((name, given) :: writtenFields others).filter _ = _
            rw [List.filter_cons, if_pos (beq_self_eq_true name), other]
            rfl
      · have apart : (field.1 == name) = false := by
          rw [beq_eq_false_iff_ne]
          rintro rfl
          exact fresh (List.mem_map.2 ⟨_, behind, rfl⟩)
        rw [← inductionHypothesis later behind]
        obtain ⟨key, _ | given⟩ := field
        · rfl
        · change ((key, given) :: writtenFields others).filter _ = _
          rw [List.filter_cons, if_neg (by simpa using apart)]

/-- The nodes of a section are those of its written fields, and its names differ. -/
structure IsSection (depth : Nat) (fields : List (String × Option Yaml))
    (nodes : List (String × Node)) : Prop where
  distinct : (fields.map Prod.fst).Nodup
  related : List.Forall₂ (ReadsField depth) (writtenFields fields) nodes

/-- A node that represents the written fields of a section is read as the section. -/
theorem exists_isSection {fields : List (String × Option Yaml)}
    (distinct : (fields.map Prod.fst).Nodup)
    (holds : represented (fieldsToYaml (writtenFields fields)) depth node = true) :
    ∃ inner nodes, depth = inner + 1 ∧ readFields document node = pure nodes ∧
      IsSection inner fields nodes := by
  obtain ⟨inner, nodes, deeper, done, related⟩ := readFields_of_represented document holds
  exact ⟨inner, nodes, deeper, done, distinct, related⟩

section

variable {α : Type} {fields : List (String × Option Yaml)} {nodes : List (String × Node)}
  {name : String} {missing result : α} {read : Node → Read α}

/-- A field of a section is read as a result if this is the default where the field is left out, and
what every node is read as that represents the value. -/
theorem IsSection.readField (isSection : IsSection depth fields nodes) {value : Option Yaml}
    (member : (name, value) ∈ fields) (absent : value = none → missing = result)
    (present : ∀ given, value = some given → ∀ node, represented given depth node = true →
      read node = pure result) :
    readField nodes name missing read = pure result := by
  have filtered := filter_of_readsField isSection.related name
  rw [filter_writtenFields isSection.distinct member] at filtered
  rw [Configuration.readField]
  cases value with
  | none => rw [List.forall₂_nil_left_iff.1 filtered, absent rfl]
  | some given =>
      obtain ⟨⟨key, node⟩, rest, here, behind, shape⟩ := List.forall₂_cons_left_iff.1 filtered
      obtain rfl := List.forall₂_nil_left_iff.1 behind
      rw [shape]
      exact present given rfl node here.2

/-- A field that is always written is read whatever its default is. -/
theorem IsSection.readField_written (isSection : IsSection depth fields nodes) {given : Yaml}
    (member : (name, some given) ∈ fields)
    (reads : ∀ node, represented given depth node = true → read node = pure result) :
    Configuration.readField nodes name missing read = pure result :=
  isSection.readField member nofun fun _ written => Option.some.inj written ▸ reads

end

/-- A node that represents the values of a dictionary under their names is read as the dictionary,
if nodes that represent its values are read as them. -/
theorem readDictionary_of_represented {α : Type} {dictionary : Dictionary α} {encode : α → Yaml}
    {read : Node → Read α}
    (holds : represented (fieldsToYaml (dictionary.entries.map fun entry =>
      (entry.1, encode entry.2))) depth node = true)
    (reads : ∀ inner, depth = inner + 1 → ∀ value node,
      represented (encode value) inner node = true → read node = pure value) :
    readDictionary document read node = pure dictionary := by
  obtain ⟨inner, nodes, rfl, done, related⟩ := readFields_of_represented document holds
  have traversed (entries : List (String × α)) (nodes : List (String × Node))
      (related : List.Forall₂ (ReadsField inner)
        (entries.map fun entry => (entry.1, encode entry.2)) nodes) :
      (nodes.mapM fun field => do return (field.1, ← read field.2)) = (pure entries : Read _) := by
    induction entries generalizing nodes with
    | nil =>
        obtain rfl := List.forall₂_nil_left_iff.1 related
        rfl
    | cons entry others inductionHypothesis =>
        obtain ⟨⟨name, node⟩, rest, ⟨same, here⟩, behind, rfl⟩ :=
          List.forall₂_cons_left_iff.1 related
        obtain rfl : name = entry.1 := same
        simp only [List.mapM_cons, reads inner rfl entry.2 node here, pure_bind,
          inductionHypothesis rest behind]
  rw [readDictionary, done, pure_bind, traversed _ _ related, pure_bind,
    Dictionary.ofList_entries]

end Fields

end Configuration

end WorkflowBundle
