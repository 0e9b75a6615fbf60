/-
This file says what the expansion of a table holds under each name.
-/

import WorkflowBundle.Proofs.Dictionary
import WorkflowBundle.Proofs.Outcome
import WorkflowBundle.Variable.Expand

namespace WorkflowBundle.Variable

/-- The entries of an expansion have the names of the table, in order, and expanded values. -/
theorem entries_of_expand {table result : Table} (expanded : expand table = .ok result) :
    ∃ entries, result = .ofList entries ∧
      List.Forall₂ (fun old new => new.1 = old.1 ∧ expandValue table old.1 old.2 = .ok new.2)
        table.entries entries := by
  simp only [expand, Outcome.bind_eq_ok_iff, Outcome.pure_eq_ok_iff,
    Outcome.mapM_eq_ok_iff] at expanded
  obtain ⟨entries, each, rfl⟩ := expanded
  refine ⟨entries, rfl, each.imp ?_⟩
  rintro ⟨name, value⟩ ⟨newName, newValue⟩ step
  obtain ⟨final, done, same⟩ := Outcome.map_eq_ok_iff.1 step
  obtain ⟨rfl, rfl⟩ := Prod.mk.inj same
  exact ⟨rfl, done⟩

theorem names_of_forall₂ (related : String → Value → Value → Prop) {old new : List (String × Value)}
    (each : List.Forall₂ (fun first second => second.1 = first.1 ∧
      related first.1 first.2 second.2) old new) : new.map Prod.fst = old.map Prod.fst := by
  induction each with
  | nil => rfl
  | cons step _ inductionHypothesis =>
      rw [List.map_cons, List.map_cons, step.1, inductionHypothesis]

/-- Related lists of entries hold related values under each name. -/
theorem lookup_of_forall₂ (related : String → Value → Value → Prop)
    {old new : List (String × Value)}
    (each : List.Forall₂ (fun first second => second.1 = first.1 ∧
      related first.1 first.2 second.2) old new) (name : String) :
    Option.Rel (related name) (old.lookup name) (new.lookup name) := by
  induction each with
  | nil => exact .none
  | @cons first second older newer step _ inductionHypothesis =>
      obtain ⟨key, value⟩ := first
      obtain ⟨newKey, newValue⟩ := second
      obtain ⟨rfl, holds⟩ := step
      simp only [Dictionary.lookup_entry]
      split
      · rename_i same
        exact .some (same ▸ holds)
      · exact inductionHypothesis

/-- An expansion defines the names of the table, each with its expanded value. -/
theorem find?_expand {table result : Table} (expanded : expand table = .ok result)
    (name : String) :
    Option.Rel (fun old new => expandValue table name old = .ok new) (table.find? name)
      (result.find? name) := by
  obtain ⟨entries, rfl, each⟩ := entries_of_expand expanded
  have ascending : entries.Pairwise fun earlier later => earlier.1 < later.1 := by
    have ordered := List.pairwise_map.2 table.ascending
    rw [← names_of_forall₂ (fun key old new => expandValue table key old = .ok new) each] at ordered
    exact List.pairwise_map.1 ordered
  rw [Dictionary.find?_ofList, Dictionary.lookup_reverse_entries ⟨entries, ascending⟩]
  exact lookup_of_forall₂ (fun key old new => expandValue table key old = .ok new) each name

/-- A table fails to expand because one of its unresolved texts does. -/
theorem expand_eq_error {table : Table} {violation : Violation}
    (failed : expand table = .error violation) :
    ∃ name text, table.find? name = some (.unresolved text) ∧
      expandWithin table chainLimit [name] text = .error violation := by
  rw [expand] at failed
  rcases Outcome.bind_eq_error_iff.1 failed with traversal | ⟨entries, -, listed⟩
  · obtain ⟨⟨name, value⟩, member, failing⟩ := Outcome.exists_of_mapM_eq_error traversal
    have bound := (Dictionary.find?_eq_some_iff table name value).2 member
    cases value with
    | unresolved text =>
        refine ⟨name, text, bound, ?_⟩
        exact Outcome.map_eq_error_iff.1 (Outcome.map_eq_error_iff.1 failing)
    | _ => nomatch failing
  · nomatch listed

/-- A table can be expanded if and only if all its unresolved texts can. -/
theorem exists_expand_iff {table : Table} :
    (∃ result, expand table = .ok result) ↔
      ∀ name text, table.find? name = some (.unresolved text) →
        ∃ expanded, expandWithin table chainLimit [name] text = .ok expanded := by
  constructor
  · rintro ⟨result, expanded⟩ name text bound
    have related := find?_expand expanded name
    rw [bound] at related
    generalize result.find? name = new at related
    cases related with
    | some step =>
        obtain ⟨inner, done, -⟩ := Outcome.map_eq_ok_iff.1 step
        exact ⟨inner, done⟩
  · intro each
    cases outcome : expand table with
    | ok result => exact ⟨result, rfl⟩
    | error violation =>
        obtain ⟨name, text, bound, failing⟩ := expand_eq_error outcome
        obtain ⟨expanded, done⟩ := each name text bound
        nomatch failing.symm.trans done

/-- A value that is not unresolved is kept by an expansion. -/
theorem find?_expand_of_resolved {table result : Table} (expanded : expand table = .ok result)
    {name : String} {value : Value} (found : table.find? name = some value)
    (resolved : value.isUnresolved = false) : result.find? name = some value := by
  have related := find?_expand expanded name
  rw [found] at related
  generalize result.find? name = new at related ⊢
  cases related with
  | some step =>
      have kept : expandValue table name value = .ok value := by
        cases value <;> first | rfl | simp [Value.isUnresolved] at resolved
      rw [kept] at step
      rw [Except.ok.inj step]

theorem find?_expand_of_none {table result : Table} (expanded : expand table = .ok result)
    {name : String} (missing : table.find? name = none) : result.find? name = none := by
  have related := find?_expand expanded name
  rw [missing] at related
  generalize result.find? name = new at related ⊢
  cases related
  rfl

/-- What a table has under a name is kept by an expansion, unless it is unresolved. -/
theorem find?_expand_of_plain {table result : Table} (expanded : expand table = .ok result)
    {name : String} (plain : ∀ value, table.find? name = some value → value.isUnresolved = false) :
    result.find? name = table.find? name := by
  rcases found : table.find? name with _ | value
  · exact find?_expand_of_none expanded found
  · exact find?_expand_of_resolved expanded found (plain value found)

end WorkflowBundle.Variable
