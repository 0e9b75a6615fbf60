/-
This file says what the records of a table hold, and when its rows can be read.
-/

import Mathlib.Data.List.Induction
import Mathlib.Data.List.NodupEquivFin
import Mathlib.Data.List.TakeWhile
import WorkflowBundle.Csv
import WorkflowBundle.Proofs.Dictionary

namespace WorkflowBundle.Csv

/-- All characters of some fields satisfy a condition. -/
abbrev AllOf (holds : Char → Prop) (fields : List String) : Prop :=
  ∀ field ∈ fields, ∀ character ∈ field.toList, holds character

namespace Reading

/-- All characters that a reading has collected satisfy a condition. -/
structure Collects (holds : Char → Prop) (reading : Reading) : Prop where
  field : ∀ character ∈ reading.field, holds character
  fields : AllOf holds reading.fields
  records : ∀ record ∈ reading.records, AllOf holds record.fields

section

variable {holds : Char → Prop} {reading : Reading}

/-- Passing a character collects nothing. -/
theorem Collects.pass (collects : Collects holds reading) (character : Char) :
    Collects holds (reading.pass character) :=
  ⟨collects.field, collects.fields, collects.records⟩

theorem Collects.withMode (collects : Collects holds reading) (mode : Mode) :
    Collects holds { reading with mode } :=
  ⟨collects.field, collects.fields, collects.records⟩

theorem Collects.add (collects : Collects holds reading) (mode : Mode) {character : Char}
    (given : holds character) : Collects holds (reading.add mode character) :=
  ⟨List.forall_mem_cons.2 ⟨given, collects.field⟩, collects.fields, collects.records⟩

/-- The end of a field collects nothing new. -/
theorem Collects.endField (collects : Collects holds reading) : Collects holds reading.endField where
  field := List.forall_mem_nil _
  fields := by
    refine List.forall_mem_cons.2 ⟨fun character member => ?_, collects.fields⟩
    exact collects.field character (by simpa using member)
  records := collects.records

theorem Collects.endRecord (collects : Collects holds reading) :
    Collects holds reading.endRecord where
  field := List.forall_mem_nil _
  fields := List.forall_mem_nil _
  records := by
    refine List.forall_mem_cons.2 ⟨fun field member => ?_, collects.records⟩
    exact collects.endField.fields field (List.mem_reverse.1 member)

/-- Outside of quotes a character is collected or ends something. -/
theorem Collects.addUnquoted (collects : Collects holds reading) {character : Char}
    (given : holds character) : Collects holds (reading.addUnquoted character) := by
  rw [Reading.addUnquoted]
  split
  · exact collects.endField
  · split
    · exact collects.endRecord
    · exact collects.add .plain given

/-- A step collects at most its character. -/
theorem Collects.step (collects : Collects holds reading) {character : Char}
    (given : holds character) : Collects holds (reading.step character) := by
  have passed := collects.pass character
  rw [Reading.step]
  cases reading.mode with
  | recordStart =>
      dsimp only
      split
      · exact passed
      · split
        · exact passed.withMode .quoted
        · exact passed.addUnquoted given
  | fieldStart =>
      dsimp only
      split
      · exact passed.withMode .quoted
      · exact passed.addUnquoted given
  | plain => exact passed.addUnquoted given
  | quoted =>
      dsimp only
      split
      · exact passed.withMode .quote
      · exact passed.add .quoted given
  | quote =>
      dsimp only
      split
      · exact passed.add .quoted given
      · exact passed.addUnquoted given

theorem Collects.run (collects : Collects holds reading) {characters : List Char}
    (given : ∀ character ∈ characters, holds character) :
    Collects holds (characters.foldl Reading.step reading) := by
  induction characters generalizing reading with
  | nil => exact collects
  | cons character rest inductionHypothesis =>
      obtain ⟨here, behind⟩ := List.forall_mem_cons.1 given
      exact inductionHypothesis (collects.step here) behind

/-- The finished records hold what was collected. -/
theorem Collects.finish (collects : Collects holds reading) :
    ∀ record ∈ reading.finish, AllOf holds record.fields := by
  intro record member
  rw [Reading.finish] at member
  split at member
  · exact collects.records record (List.mem_reverse.1 member)
  · exact collects.endRecord.records record (List.mem_reverse.1 member)

theorem collects_startAt (holds : Char → Prop) (byte : Nat) :
    Collects holds (.startAt byte) :=
  ⟨List.forall_mem_nil _, List.forall_mem_nil _, List.forall_mem_nil _⟩

end

end Reading

/-- The characters of the records of a text are characters of the text. -/
theorem mem_of_mem_records {text : String} {record : Record} (member : record ∈ records text) :
    AllOf (· ∈ text.toList) record.fields := by
  rw [records] at member
  split at member
  · rename_i rest shape
    have collects := (Reading.collects_startAt (· ∈ text.toList) 3).run
      (fun character inside => shape ▸ List.mem_cons_of_mem '\ufeff' inside)
    exact collects.finish record member
  · have collects := (Reading.collects_startAt (· ∈ text.toList) 0).run fun _ inside => inside
    exact collects.finish record member

/-- A text with a trimmed field that is not empty is not blank. -/
theorem isBlankText_eq_false {text : String} {record : Record} (member : record ∈ records text)
    {field : String} (trimmed : field ∈ record.trimmed) (written : field ≠ "") :
    Text.isBlankText text = false := by
  rw [Bool.eq_false_iff]
  intro blank
  obtain ⟨original, inside, rfl⟩ := List.mem_map.1 trimmed
  have start : Text.trimStart original.toList = [] := by
    rw [Text.trimStart, List.dropWhile_eq_nil_iff]
    intro character within
    exact List.all_eq_true.1 blank character (mem_of_mem_records member original inside _ within)
  apply written
  rw [Text.trim, start]
  rfl

/-- No column that is asked for is named twice when each name occurs at most once. -/
theorem repeated?_eq_none {asked names : List String}
    (once : ∀ name ∈ asked, names.count name ≤ 1) : repeated? asked names = none := by
  induction names with
  | nil => rfl
  | cons name rest inductionHypothesis =>
      have shorter : ∀ other ∈ asked, rest.count other ≤ 1 := by
        intro other member
        exact Nat.le_trans List.count_le_count_cons (once other member)
      have fresh : (asked.contains name && rest.contains name) = false := by
        rw [Bool.and_eq_false_imp, List.contains_iff_mem]
        intro member
        have few := once name member
        rw [List.count_cons_self] at few
        have none := List.count_eq_zero.1 (Nat.le_zero.1 (Nat.le_of_succ_le_succ few))
        simpa using none
      rw [repeated?, inductionHypothesis shorter, fresh]
      rfl

/-- A record as long as the header is read when every column that is asked for is named once. -/
theorem row_eq_ok {asked header : List String} {record : Record}
    (same : record.fields.length = header.length)
    (once : ∀ name ∈ asked, header.count name = 1) :
    row asked header record = .ok (header.zip record.trimmed) := by
  have single : repeated? asked header.reverse = none := by
    apply repeated?_eq_none
    intro name member
    rw [List.count_reverse]
    exact (once name member).le
  rw [row, if_neg (not_not.2 same), single]

/-- A record has a value in a column with a name of the header. -/
def Holds (header fields : List String) (name value : String) : Prop :=
  ∃ column : Nat, header[column]? = some name ∧ fields[column]? = some value

section

variable {header fields : List String} {name value : String}

theorem column_unique {first second : Nat} (once : header.count name = 1)
    (one : header[first]? = some name) (another : header[second]? = some name) :
    first = second := by
  have noDuplicate : ¬ List.Duplicate name header := by
    rw [List.duplicate_iff_two_le_count]
    omega
  obtain ⟨firstInside, firstName⟩ := List.getElem?_eq_some_iff.1 one
  obtain ⟨secondInside, secondName⟩ := List.getElem?_eq_some_iff.1 another
  rcases Nat.lt_trichotomy first second with less | same | more
  · exact absurd (List.duplicate_iff_exists_distinct_get.2
      ⟨⟨first, firstInside⟩, ⟨second, secondInside⟩, less, firstName.symm, secondName.symm⟩)
      noDuplicate
  · exact same
  · exact absurd (List.duplicate_iff_exists_distinct_get.2
      ⟨⟨second, secondInside⟩, ⟨first, firstInside⟩, more, secondName.symm, firstName.symm⟩)
      noDuplicate

theorem Holds.unique {other : String} (once : header.count name = 1)
    (one : Holds header fields name value) (another : Holds header fields name other) :
    value = other := by
  obtain ⟨first, named, held⟩ := one
  obtain ⟨second, alsoNamed, alsoHeld⟩ := another
  obtain rfl := column_unique once named alsoNamed
  exact Option.some.inj (held.symm.trans alsoHeld)

/-- A record as long as the header has a value under every name of the header. -/
theorem exists_holds (same : fields.length = header.length) (member : name ∈ header) :
    ∃ value, Holds header fields name value := by
  obtain ⟨column, inside, rfl⟩ := List.getElem_of_mem member
  have also : column < fields.length := same ▸ inside
  exact ⟨fields[column], column, List.getElem?_eq_getElem inside, List.getElem?_eq_getElem also⟩

/-- A value that a row finds by a name stands in a column with the name. -/
theorem holds_of_lookup (found : (header.zip fields).lookup name = some value) :
    Holds header fields name value := by
  obtain ⟨column, inside, pair⟩ := List.getElem_of_mem (Dictionary.mem_of_lookup found)
  have both : (header.zip fields)[column]? = some (name, value) := by
    rw [List.getElem?_eq_getElem inside, pair]
  rw [List.getElem?_zip_eq_some] at both
  exact ⟨column, both⟩

/-- A row finds the value of the column with a name that occurs once. -/
theorem lookup_eq_some_iff (once : header.count name = 1) :
    (header.zip fields).lookup name = some value ↔ Holds header fields name value := by
  refine ⟨holds_of_lookup, fun holds => ?_⟩
  obtain ⟨column, named, held⟩ := holds
  have member : (name, value) ∈ header.zip fields :=
    List.mem_of_getElem? (List.getElem?_zip_eq_some.2 ⟨named, held⟩)
  obtain ⟨other, found⟩ := Option.isSome_iff_exists.1
    (List.lookup_isSome_iff.2 ⟨(name, value), member, beq_self_eq_true name⟩)
  obtain rfl := Holds.unique once (holds_of_lookup found) ⟨column, named, held⟩
  exact found

end

/-- Some columns of the fields of a record, in the given order. -/
def inOrder (columns : List Nat) (fields : List String) : List String :=
  columns.filterMap fun column => fields[column]?

section

variable {columns : List Nat} {header fields : List String}

theorem inOrder_range (fields : List String) : inOrder (List.range fields.length) fields = fields := by
  induction fields using List.reverseRecOn with
  | nil => rfl
  | append_singleton fields last inductionHypothesis =>
      have before : (List.range fields.length).filterMap (fun column => (fields ++ [last])[column]?) =
          (List.range fields.length).filterMap fun column => fields[column]? := by
        apply List.filterMap_congr
        intro column member
        exact List.getElem?_append_left (List.mem_range.1 member)
      rw [inOrder, List.length_append, List.length_singleton, List.range_succ, List.filterMap_append,
        before, ← inOrder, inductionHypothesis]
      simp

theorem inOrder_perm (order : columns.Perm (List.range fields.length)) :
    (inOrder columns fields).Perm fields := by
  have permuted := order.filterMap fun column => fields[column]?
  rwa [← inOrder, ← inOrder, inOrder_range] at permuted

theorem trimmed_inOrder {record other : Record} (same : other.fields = inOrder columns record.fields) :
    other.trimmed = inOrder columns record.trimmed := by
  rw [Record.trimmed, same, inOrder, inOrder, Record.trimmed, List.map_filterMap]
  apply List.filterMap_congr
  intro column _
  rw [List.getElem?_map]

theorem getElem?_inOrder (inside : ∀ column ∈ columns, column < fields.length) (place : Nat) :
    (inOrder columns fields)[place]? = columns[place]?.bind fun column => fields[column]? := by
  induction columns generalizing place with
  | nil => rfl
  | cons column rest inductionHypothesis =>
      obtain ⟨here, behind⟩ := List.forall_mem_cons.1 inside
      rw [inOrder, List.filterMap_cons_some (List.getElem?_eq_getElem here), ← inOrder]
      cases place with
      | zero => simp [List.getElem?_eq_getElem here]
      | succ place =>
          rw [List.getElem?_cons_succ, List.getElem?_cons_succ, inductionHypothesis behind]

/-- A permutation of the columns of header and record changes no value under a name. -/
theorem holds_inOrder_iff (same : fields.length = header.length)
    (order : columns.Perm (List.range header.length)) {name value : String} :
    Holds (inOrder columns header) (inOrder columns fields) name value ↔
      Holds header fields name value := by
  have inside (column : Nat) : column ∈ columns ↔ column < header.length := by
    rw [order.mem_iff, List.mem_range]
  have headerAt := getElem?_inOrder fun column member => (inside column).1 member
  have fieldsAt : ∀ place, (inOrder columns fields)[place]? =
      columns[place]?.bind fun column => fields[column]? :=
    getElem?_inOrder fun column member => same ▸ (inside column).1 member
  constructor
  · rintro ⟨place, named, held⟩
    rw [headerAt] at named
    rw [fieldsAt] at held
    obtain ⟨column, there, named⟩ := Option.bind_eq_some_iff.1 named
    rw [there] at held
    exact ⟨column, named, held⟩
  · rintro ⟨column, named, held⟩
    have member := (inside column).2 (List.getElem?_eq_some_iff.1 named).1
    obtain ⟨place, within, there⟩ := List.getElem_of_mem member
    have listed : columns[place]? = some column := by
      rw [List.getElem?_eq_getElem within, there]
    refine ⟨place, ?_, ?_⟩
    · rw [headerAt, listed]
      exact named
    · rw [fieldsAt, listed]
      exact held

end

end WorkflowBundle.Csv
