/-
This file shows that an expanded table solves the equations that the unresolved texts of a table
state.
-/

import WorkflowBundle.Proofs.Variable.Substitution

namespace WorkflowBundle.Variable

/-- A value is filled from a table when the references of its unresolved text become the texts of
that table. -/
def Value.filledFrom (result : Table) : Value → Value
  | .unresolved raw => .ofText (fill result.text? raw)
  | value => value

/-- The value of a text is filled to the value of the filled text. -/
theorem Value.filledFrom_ofText (result : Table) (text : String) :
    (Value.ofText text).filledFrom result = .ofText (fill result.text? text) := by
  cases holds : hasPlaceholder text with
  | true => simp [Value.ofText, holds, filledFrom]
  | false =>
      simp [fill_of_plain holds, Value.ofText, holds, filledFrom]

section

variable {table result : Table}

/-- What a text expands to depends neither on the chain that led to it nor on the levels left. -/
theorem expandWithin_agree {levels others : Nat} {chain path : List String}
    {text first second : String} (one : expandWithin table levels chain text = .ok first)
    (other : expandWithin table others path text = .ok second) : first = second := by
  induction levels generalizing others chain path text first second with
  | zero => nomatch one
  | succ levels inductionHypothesis =>
      cases others with
      | zero => nomatch other
      | succ others =>
          -- Both results fill the same text, so it is enough that the inserted texts agree.
          rw [← expandWithin_eq_ok one, ← expandWithin_eq_ok other]
          apply fill_congr
          intro found member
          rw [given?, given?]
          rcases bound : table.find? found.name with _ | value
          · rfl
          · cases value with
            | unresolved inner =>
                obtain ⟨here, done⟩ := (exists_expandWithin_iff.1 ⟨_, one⟩ found member).2 inner bound
                obtain ⟨there, same⟩ :=
                  (exists_expandWithin_iff.1 ⟨_, other⟩ found member).2 inner bound
                obtain rfl := inductionHypothesis done same
                simp only [done, same]
            | _ => rfl

theorem render_ofText (text : String) : (Value.ofText text).render = text := by
  rw [Value.ofText]
  split <;> rfl

/-- An expanded table has the texts that a substitution from an empty chain uses. -/
theorem text?_expand (expanded : expand table = .ok result) (name : String) :
    result.text? name = given? table chainLimit [] name := by
  have related := find?_expand expanded name
  rw [Table.text?, given?]
  generalize table.find? name = old at related ⊢
  generalize result.find? name = new at related ⊢
  cases related with
  | none => rfl
  | @some value final step =>
      cases value with
      | unresolved raw =>
          obtain ⟨inner, done, rfl⟩ := Outcome.map_eq_ok_iff.1 step
          simp [done, render_ofText, Except.toOption]
      | _ =>
          obtain rfl := Except.ok.inj step
          rfl

/-- Where a table can be expanded, every text is filled with the texts of the expanded table. -/
theorem expandText_eq_fill (expanded : expand table = .ok result) (text : String) :
    expandText table text = .ok (fill result.text? text) := by
  obtain ⟨final, done⟩ : ∃ final, expandText table text = .ok final := by
    refine exists_expandWithin_iff.2 fun found _ => ⟨List.not_mem_nil, ?_⟩
    exact exists_expand_iff.1 ⟨result, expanded⟩ found.name
  have filled := expandWithin_eq_ok done
  rw [← funext (text?_expand expanded)] at filled
  rw [done, filled]

/-- An expanded table has the values of the table, filled from the expanded table itself. -/
theorem find?_expand_eq (expanded : expand table = .ok result) (name : String) :
    result.find? name = (table.find? name).map (Value.filledFrom result) := by
  have related := find?_expand expanded name
  generalize table.find? name = old at related ⊢
  generalize result.find? name = new at related ⊢
  cases related with
  | none => rfl
  | @some value final step =>
      cases value with
      | unresolved raw =>
          obtain ⟨inner, done, rfl⟩ := Outcome.map_eq_ok_iff.1 step
          rw [expandWithin_agree done (expandText_eq_fill expanded raw)]
          rfl
      | _ => exact congrArg some (Except.ok.inj step).symm

end

/-- An expansion keeps the names and the values that are not unresolved, and every unresolved text
becomes itself with its references filled from the expanded table. The same table fills every other
text, so that a substitution does not insert unexpanded values. -/
theorem expansion_solves_references {table result : Table} (expanded : expand table = .ok result) :
    (∀ name, result.contains name = table.contains name) ∧
    (∀ name value, table.find? name = some value → value.isUnresolved = false →
      result.find? name = some value) ∧
    (∀ name raw, table.find? name = some (.unresolved raw) →
      result.find? name = some (.ofText (fill result.text? raw)) ∧
        result.text? name = some (fill result.text? raw)) ∧
    ∀ text, expandText table text = .ok (fill result.text? text) ∧
      substitute table text = fill result.text? text := by
  refine ⟨?_, fun name value => find?_expand_of_resolved expanded, ?_, ?_⟩
  · intro name
    rw [Dictionary.contains, Dictionary.contains, find?_expand_eq expanded, Option.isSome_map]
  · intro name raw bound
    have found : result.find? name = some (.ofText (fill result.text? raw)) := by
      rw [find?_expand_eq expanded, bound]
      rfl
    refine ⟨found, ?_⟩
    rw [Table.text?, found, Option.map_some, render_ofText]
  · intro text
    have filled := expandText_eq_fill expanded text
    refine ⟨filled, ?_⟩
    rw [substitute, filled]

/-- A report lies in a directory that refers to the root and to an unknown name. -/
def reportTable : Table :=
  .ofList [("out", .unresolved "{root}/{gone}"), ("report", .unresolved "{out}.md"),
    ("root", .text "/repo")]

/-- The report is expanded, and a text refers to the expanded path. -/
theorem expansion_solves_report :
    ∃ result, expand reportTable = .ok result ∧ result.text? "report" = some "/repo/{gone}.md" ∧
      substitute reportTable "See {{report}}." = fill result.text? "See {{report}}." := by
  have shown : (expand reportTable).toOption.map (fun result => result.text? "report") =
      some (some "/repo/{gone}.md") := by
    decide +kernel
  obtain ⟨result, expanded, written⟩ := Outcome.exists_of_map_toOption shown
  obtain ⟨-, -, -, each⟩ := expansion_solves_references expanded
  exact ⟨result, expanded, written, (each "See {{report}}.").2⟩

end WorkflowBundle.Variable
