/-
This file compares the texts that a substitution inserts with the values of the variables.
-/

import WorkflowBundle.Proofs.Variable.Expansion
import WorkflowBundle.Proofs.Variable.Reference

namespace WorkflowBundle.Variable

/-- Below a chain a name gets the expansion of its unresolved text, or its rendered value. -/
def given? (table : Table) (levels : Nat) (chain : List String) (name : String) :
    Option String :=
  match table.find? name with
  | some (.unresolved inner) => (expandWithin table levels (chain ++ [name]) inner).toOption
  | some value => some value.render
  | none => none

/-- A substitution uses the expansions of the values if its text can be expanded, and the values
themselves otherwise. -/
def used? (table : Table) (text : String) : String → Option String :=
  match expandText table text with
  | .ok _ => given? table chainLimit []
  | .error _ => table.text?

/-- Filling a text inserts what a lookup finds for its references. -/
def fill (lookup : String → Option String) (text : String) : String :=
  String.ofList ((segments text).flatMap (Segment.replacement lookup))

/-- One segment of a text is expanded below a chain. -/
def expandSegment (table : Table) (levels : Nat) (chain : List String) :
    Segment → Except Violation (List Char)
  | .literal character => .ok [character]
  | .reference found =>
    if chain.contains found.name then .error (.circularVariable chain found.name)
    else
      match table.find? found.name with
      | some (.unresolved inner) =>
        (expandWithin table levels (chain ++ [found.name]) inner).map String.toList
      | some value => .ok value.render.toList
      | none => .ok found.written

/-- A text is expanded segment by segment. -/
theorem expandWithin_succ (table : Table) (levels : Nat) (chain : List String) (text : String) :
    expandWithin table (levels + 1) chain text =
      ((segments text).mapM (expandSegment table levels chain) >>= fun parts =>
        pure (String.ofList parts.flatten)) := by
  rw [expandWithin]
  congr 2

/-- A segment that can be expanded becomes its replacement. -/
theorem expandSegment_eq_ok {table : Table} {levels : Nat} {chain : List String}
    {segment : Segment} {part : List Char}
    (expanded : expandSegment table levels chain segment = .ok part) :
    segment.replacement (given? table levels chain) = part := by
  cases segment with
  | literal character => exact Except.ok.inj expanded
  | reference found =>
      rw [expandSegment] at expanded
      split at expanded
      · nomatch expanded
      · rw [Segment.replacement, given?]
        rcases bound : table.find? found.name with _ | value
        · rw [bound] at expanded
          exact Except.ok.inj expanded
        · rw [bound] at expanded
          cases value with
          | unresolved inner =>
              obtain ⟨result, done, rfl⟩ := Outcome.map_eq_ok_iff.1 expanded
              simp [done, Except.toOption]
          | _ => exact Except.ok.inj expanded

/-- A text that can be expanded is filled with the expansions of its variables. -/
theorem expandWithin_eq_ok {table : Table} {levels : Nat} {chain : List String}
    {text result : String} (expanded : expandWithin table (levels + 1) chain text = .ok result) :
    fill (given? table levels chain) text = result := by
  rw [expandWithin_succ] at expanded
  obtain ⟨parts, mapped, joined⟩ := Outcome.bind_eq_ok_iff.1 expanded
  obtain rfl := Outcome.pure_eq_ok_iff.1 joined
  have each := (Outcome.mapM_eq_ok_iff _ _ _).1 mapped
  have replaced :
      (segments text).map (Segment.replacement (given? table levels chain)) = parts := by
    rw [← List.forall₂_eq_eq_eq, List.forall₂_map_left_iff]
    exact each.imp fun _ _ => expandSegment_eq_ok
  rw [fill, List.flatMap_def, replaced]

/-- A reference can be expanded below a chain if it is not to a member of the chain, and the text it
refers to, if that is unresolved, can be expanded below the longer chain. -/
theorem exists_expandSegment_iff {table : Table} {levels : Nat} {chain : List String}
    {found : Reference} :
    (∃ part, expandSegment table levels chain (.reference found) = .ok part) ↔
      found.name ∉ chain ∧ ∀ inner, table.find? found.name = some (.unresolved inner) →
        ∃ result, expandWithin table levels (chain ++ [found.name]) inner = .ok result := by
  by_cases inside : found.name ∈ chain
  · simp [expandSegment, inside]
  · rcases bound : table.find? found.name with _ | value
    · simp [expandSegment, inside, bound]
    · cases value with
      | unresolved inner => simp [expandSegment, inside, bound]
      | _ => simp [expandSegment, inside, bound]

/-- A reference fails to expand because it closes a circle, or because the unresolved text it refers
to does. -/
theorem expandSegment_eq_error {table : Table} {levels : Nat} {chain : List String}
    {segment : Segment} {violation : Violation}
    (failed : expandSegment table levels chain segment = .error violation) :
    ∃ found, segment = .reference found ∧
      (found.name ∈ chain ∧ violation = .circularVariable chain found.name ∨
        ∃ inner, table.find? found.name = some (.unresolved inner) ∧
          expandWithin table levels (chain ++ [found.name]) inner = .error violation) := by
  cases segment with
  | literal character => nomatch failed
  | reference found =>
      refine ⟨found, rfl, ?_⟩
      rw [expandSegment] at failed
      split at failed
      · rename_i inside
        exact .inl ⟨List.contains_iff_mem.1 inside, (Except.error.inj failed).symm⟩
      · rcases bound : table.find? found.name with _ | value
        · simp [bound] at failed
        · cases value with
          | unresolved inner =>
              simp only [bound] at failed
              exact .inr ⟨inner, rfl, Outcome.map_eq_error_iff.1 failed⟩
          | _ => simp [bound] at failed

/-- A text can be expanded below a chain if all its references can. -/
theorem exists_expandWithin_iff {table : Table} {levels : Nat} {chain : List String}
    {text : String} :
    (∃ result, expandWithin table (levels + 1) chain text = .ok result) ↔
      ∀ found, .reference found ∈ segments text → found.name ∉ chain ∧
        ∀ inner, table.find? found.name = some (.unresolved inner) →
          ∃ result, expandWithin table levels (chain ++ [found.name]) inner = .ok result := by
  have traversed : (∃ result, expandWithin table (levels + 1) chain text = .ok result) ↔
      ∃ parts, (segments text).mapM (expandSegment table levels chain) = .ok parts := by
    simp only [expandWithin_succ, Outcome.bind_eq_ok_iff, Outcome.pure_eq_ok_iff]
    constructor
    · rintro ⟨_, parts, done, -⟩
      exact ⟨parts, done⟩
    · rintro ⟨parts, done⟩
      exact ⟨_, parts, done, rfl⟩
  rw [traversed, Outcome.exists_mapM_eq_ok_iff]
  constructor
  · intro each found member
    exact exists_expandSegment_iff.1 (each _ member)
  · intro each segment member
    cases segment with
    | literal character => exact ⟨[character], rfl⟩
    | reference found => exact exists_expandSegment_iff.2 (each found member)

/-- A text fails to expand because one of its references does. -/
theorem expandWithin_eq_error {table : Table} {levels : Nat} {chain : List String}
    {text : String} {violation : Violation}
    (failed : expandWithin table (levels + 1) chain text = .error violation) :
    ∃ found, .reference found ∈ segments text ∧
      (found.name ∈ chain ∧ violation = .circularVariable chain found.name ∨
        ∃ inner, table.find? found.name = some (.unresolved inner) ∧
          expandWithin table levels (chain ++ [found.name]) inner = .error violation) := by
  rw [expandWithin_succ] at failed
  rcases Outcome.bind_eq_error_iff.1 failed with traversal | ⟨parts, -, joined⟩
  · obtain ⟨segment, member, failing⟩ := Outcome.exists_of_mapM_eq_error traversal
    obtain ⟨found, rfl, cause⟩ := expandSegment_eq_error failing
    exact ⟨found, member, cause⟩
  · nomatch joined

theorem substitute_eq_fill (table : Table) (text : String) :
    substitute table text = fill (used? table text) text := by
  rw [substitute, used?]
  cases expansion : expandText table text with
  | ok expanded => exact (expandWithin_eq_ok expansion).symm
  | error violation => rfl

/-- A text with a placeholder is the text of the unresolved value. -/
theorem ofText_eq_unresolved_iff {text raw : String} :
    Value.ofText text = .unresolved raw ↔ text = raw ∧ hasPlaceholder raw = true := by
  rw [Value.ofText]
  split
  · rename_i holds
    constructor
    · intro same
      obtain rfl := Value.unresolved.inj same
      exact ⟨rfl, holds⟩
    · rintro ⟨rfl, -⟩
      rfl
  · rename_i plain
    constructor
    · nofun
    · rintro ⟨rfl, holds⟩
      exact absurd holds plain

/-- A table is typed when its unresolved values have placeholders. -/
def Typed (table : Table) : Prop :=
  ∀ name raw, table.find? name = some (.unresolved raw) → hasPlaceholder raw = true

/-- A value that is not changed by a further expansion is used as it is shown, and only such a value
is. -/
theorem given?_eq_render_iff {table : Table} (typed : Typed table) {name : String} {value : Value}
    (bound : table.find? name = some value) :
    given? table chainLimit [] name = some value.render ↔
      expandValue table name value = .ok value := by
  rw [given?, bound]
  cases value with
  | unresolved raw =>
      simp only [List.nil_append, expandValue, Value.render, Outcome.map_eq_ok_iff,
        ofText_eq_unresolved_iff]
      cases expansion : expandWithin table chainLimit [name] raw with
      | error violation => simp [Except.toOption]
      | ok expanded => simp [Except.toOption, typed name raw bound]
  | _ => simp [expandValue]

/-- A reference gets the text its variable shows if and only if the text around it cannot be
expanded or the value is not changed by a further expansion. -/
theorem used?_eq_render_iff {table : Table} (typed : Typed table) (text : String) {name : String}
    {value : Value} (bound : table.find? name = some value) :
    used? table text name = some value.render ↔
      (∃ violation, expandText table text = .error violation) ∨
        expandValue table name value = .ok value := by
  rw [used?]
  cases expandText table text with
  | error violation => simp [Table.text?, bound]
  | ok expanded => simpa using given?_eq_render_iff typed bound

/-- A text without known references expands to itself. -/
theorem expandWithin_of_unknown {table : Table} {levels : Nat} {chain : List String}
    {text : String}
    (unknown : ∀ found, .reference found ∈ segments text →
      found.name ∉ chain ∧ table.find? found.name = none) :
    expandWithin table (levels + 1) chain text = .ok text := by
  have each : (segments text).mapM (expandSegment table levels chain) =
      .ok ((segments text).map Segment.written) := by
    rw [Outcome.mapM_eq_ok_iff, List.forall₂_map_right_iff, List.forall₂_same]
    intro segment member
    cases segment with
    | literal character => rfl
    | reference found =>
        obtain ⟨outside, missing⟩ := unknown found member
        simp [expandSegment, outside, missing, Segment.written]
  rw [expandWithin_succ, each]
  change Except.ok (String.ofList ((segments text).map Segment.written).flatten) = .ok text
  rw [← List.flatMap_def, written_segments, String.ofList_toList]

/-- A value is not changed by a further expansion if it refers to no variable of the table. -/
theorem expandValue_of_unknown {table : Table} (typed : Typed table) {name : String} {value : Value}
    (bound : table.find? name = some value)
    (unknown : ∀ raw, value = .unresolved raw → ∀ found, .reference found ∈ segments raw →
      table.find? found.name = none) :
    expandValue table name value = .ok value := by
  cases value with
  | unresolved raw =>
      have unchanged : expandWithin table chainLimit [name] raw = .ok raw := by
        apply expandWithin_of_unknown
        intro found member
        have missing := unknown raw rfl found member
        refine ⟨?_, missing⟩
        intro same
        obtain rfl := List.mem_singleton.1 same
        simp [bound] at missing
      rw [expandValue, unchanged]
      exact congrArg Except.ok (ofText_eq_unresolved_iff.2 ⟨rfl, typed name raw bound⟩)
  | _ => rfl

/-- Lookups that agree on the references of a text fill it alike. -/
theorem fill_congr {first second : String → Option String} {text : String}
    (agree : ∀ found, .reference found ∈ segments text → first found.name = second found.name) :
    fill first text = fill second text := by
  have replaced : ∀ segment ∈ segments text,
      segment.replacement first = segment.replacement second := by
    intro segment member
    cases segment with
    | literal character => rfl
    | reference found => rw [Segment.replacement, Segment.replacement, agree found member]
  rw [fill, fill, List.flatMap_congr replaced]

/-- A text whose references a lookup does not know is filled to itself. -/
theorem fill_of_unknown {lookup : String → Option String} {text : String}
    (unknown : ∀ found, .reference found ∈ segments text → lookup found.name = none) :
    fill lookup text = text := by
  have replaced : ∀ segment ∈ segments text,
      segment.replacement lookup = segment.written := by
    intro segment member
    cases segment with
    | literal character => rfl
    | reference found => simp [Segment.replacement, unknown found member, Segment.written]
  rw [fill, List.flatMap_congr replaced, written_segments, String.ofList_toList]

theorem fill_of_plain {lookup : String → Option String} {text : String}
    (plain : hasPlaceholder text = false) : fill lookup text = text :=
  fill_of_unknown fun found member => absurd member (not_mem_segments_of_plain plain found)

theorem fill_of_undefined {table : Table} {text : String}
    (undefined : ∀ found, .reference found ∈ segments text → table.find? found.name = none) :
    fill table.text? text = text := by
  refine fill_of_unknown fun found member => ?_
  rw [Table.text?, undefined found member]
  rfl

theorem used?_of_missing {table : Table} (text : String) {name : String}
    (missing : table.find? name = none) : used? table text name = none := by
  rw [used?]
  cases expandText table text with
  | ok expanded => simp [given?, missing]
  | error violation => simp [Table.text?, missing]

theorem typed_of_expand {table result : Table} (expanded : expand table = .ok result) :
    Typed result := by
  intro name raw found
  have related := find?_expand expanded name
  rw [found] at related
  generalize table.find? name = old at related
  cases related with
  | @some value _ step =>
      cases value with
      | unresolved text =>
          obtain ⟨inner, -, same⟩ := Outcome.map_eq_ok_iff.1 step
          exact (ofText_eq_unresolved_iff.1 same).2
      | _ => nomatch step

theorem Typed.insert {table : Table} (typed : Typed table) (name text : String) :
    Typed (table.insert name (.ofText text)) := by
  intro other raw found
  rw [Dictionary.find?_insert] at found
  split at found
  · exact (ofText_eq_unresolved_iff.1 (Option.some.inj found)).2
  · exact typed other raw found

end WorkflowBundle.Variable
