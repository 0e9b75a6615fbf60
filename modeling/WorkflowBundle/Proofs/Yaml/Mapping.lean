/-
This file says what setting a key of a mapping does to its entries.
-/

import WorkflowBundle.Yaml.Basic

namespace WorkflowBundle

namespace Yaml

/-- A search has the only result that any of the entries gives. -/
theorem findSome?_of_uniform {Entry Result : Type} {read : Entry → Option Result}
    {entries : List Entry} {result : Result}
    (each : ∀ entry ∈ entries, read entry = none ∨ read entry = some result)
    (here : ∃ entry ∈ entries, read entry = some result) :
    entries.findSome? read = some result := by
  rcases found : entries.findSome? read with _ | other
  · obtain ⟨entry, member, given⟩ := here
    rw [List.findSome?_eq_none_iff.1 found entry member] at given
    nomatch given
  · obtain ⟨entry, member, given⟩ := List.exists_of_findSome?_eq_some found
    rcases each entry member with none | same
    · nomatch none.symm.trans given
    · rw [← given, same]

theorem text?_of_same {first second : Yaml} (equal : same first second = true) :
    first.text? = second.text? := by
  fun_induction untagged first generalizing second with
  | case1 tag value inductionHypothesis =>
      cases second with
      | tagged other inner =>
          rw [same, Bool.and_eq_true] at equal
          have inside : value.text? = inner.text? := inductionHypothesis equal.2
          exact inside
      | _ => simp [same] at equal
  | case2 value plain =>
      cases value with
      | tagged tag value => exact absurd rfl (plain tag value)
      | string text =>
          cases second with
          | string other =>
              rw [same, beq_iff_eq] at equal
              rw [equal]
          | _ => simp [same] at equal
      | _ => cases second <;> first | rfl | simp [same] at equal

namespace Mapping

variable {mapping : Mapping} {key value : Yaml}

theorem mem_set {entry : Yaml × Yaml} (member : entry ∈ mapping.set key value) :
    entry ∈ mapping ∧ same entry.1 key = false ∨
      entry.2 = value ∧ (same entry.1 key = true ∨ entry.1 = key) := by
  rw [set] at member
  split at member
  · obtain ⟨old, inside, rfl⟩ := List.mem_map.1 member
    split
    · rename_i equal
      exact .inr ⟨rfl, .inl equal⟩
    · rename_i other
      exact .inl ⟨inside, Bool.eq_false_iff.2 other⟩
  · rename_i unset
    rcases List.mem_append.1 member with inside | added
    · refine .inl ⟨inside, Bool.eq_false_iff.2 fun equal => unset ?_⟩
      exact List.any_eq_true.2 ⟨entry, inside, equal⟩
    · rw [List.mem_singleton.1 added]
      exact .inr ⟨rfl, .inr rfl⟩

/-- A key that is set has the value in some entry. -/
theorem exists_mem_set (mapping : Mapping) (key value : Yaml) :
    ∃ entry ∈ mapping.set key value,
      entry.2 = value ∧ (same entry.1 key = true ∨ entry.1 = key) := by
  rw [set]
  split
  · rename_i present
    obtain ⟨old, inside, equal⟩ := List.any_eq_true.1 present
    exact ⟨_, List.mem_map.2 ⟨old, inside, rfl⟩, by simp [equal]⟩
  · exact ⟨(key, value), List.mem_append_right _ List.mem_cons_self, rfl, .inr rfl⟩

/-- A search that ignores the entries with the text of a key does not change when the key is set. -/
theorem findSome?_set {Result : Type} {read : Yaml × Yaml → Option Result}
    (ignored : ∀ entry, entry.1.text? = key.text? → read entry = none) :
    (mapping.set key value).reverse.findSome? read = mapping.reverse.findSome? read := by
  rw [set]
  split
  · have same : (read ∘ fun entry => if Yaml.same entry.1 key then (entry.1, value) else entry) =
        read := by
      funext entry
      rw [Function.comp_apply]
      split
      · rename_i equal
        have text := text?_of_same equal
        rw [ignored entry text, ignored (entry.1, value) text]
      · rfl
    rw [← List.map_reverse, List.findSome?_map, same]
  · rw [List.reverse_append, List.reverse_singleton, List.findSome?_append,
      List.findSome?_singleton, ignored (key, value) rfl, Option.none_or]

theorem find?_set (mapping : Mapping) (name : String) (value : Yaml) :
    (mapping.set (.string name) value).find? name = some value := by
  have keyed {other : Yaml} (equal : same other (.string name) = true ∨ other = .string name) :
      other = .string name := by
    rcases equal with equal | rfl
    · cases other <;> simp_all [same]
    · rfl
  apply findSome?_of_uniform
  · intro entry member
    rcases mem_set member with ⟨-, other⟩ | ⟨set, equal⟩
    · left
      split
      · rename_i text here
        rw [here] at other
        refine if_neg fun equal => ?_
        simp [equal, same] at other
      · rfl
    · right
      rw [keyed equal]
      exact (if_pos rfl).trans (congrArg some set)
  · obtain ⟨entry, member, set, equal⟩ := exists_mem_set mapping (.string name) value
    refine ⟨entry, member, ?_⟩
    rw [keyed equal]
    exact (if_pos rfl).trans (congrArg some set)

theorem find?_append (first second : Mapping) (name : String) :
    (first ++ second).find? name = (first.find? name).or (second.find? name) :=
  List.findSome?_append

theorem find?_of_forall_ne {name : String} (other : ∀ entry ∈ mapping, entry.1 ≠ .string name) :
    mapping.find? name = none := by
  refine List.findSome?_eq_none_iff.2 fun entry member => ?_
  split
  · rename_i text here
    refine if_neg ?_
    rintro rfl
    exact other entry member here
  · rfl

end Mapping

end Yaml

end WorkflowBundle
