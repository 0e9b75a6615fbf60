/-
This file says which fragments an index keeps, and which one it finds by an identifier.
-/

import Mathlib.Data.List.Induction
import Mathlib.Data.List.Nodup
import WorkflowBundle.Knowledge.Fragment
import WorkflowBundle.Proofs.Firsts

namespace WorkflowBundle.KnowledgeIndex

/-- A last fragment is kept when no kept one has its identifier. -/
theorem keepFirst_concat (fragments : List Fragment) (last : Fragment) :
    keepFirst (fragments ++ [last]) =
      if last.id ∈ (keepFirst fragments).map Fragment.id then keepFirst fragments
      else keepFirst fragments ++ [last] :=
  Firsts.keepNew_concat Fragment.id fragments last

theorem keepFirst_sublist (fragments : List Fragment) :
    (keepFirst fragments).Sublist fragments := by
  -- Fragments are kept from the first to the last, so the induction adds them at the end.
  induction fragments using List.reverseRecOn with
  | nil => exact .slnil
  | append_singleton fragments last inductionHypothesis =>
      rw [keepFirst_concat]
      split
      · exact inductionHypothesis.trans (List.sublist_append_left fragments [last])
      · exact inductionHypothesis.append_right [last]

theorem nodup_keepFirst (fragments : List Fragment) :
    ((keepFirst fragments).map Fragment.id).Nodup := by
  induction fragments using List.reverseRecOn with
  | nil => exact List.nodup_nil
  | append_singleton fragments last inductionHypothesis =>
      rw [keepFirst_concat]
      split
      · exact inductionHypothesis
      · rename_i fresh
        rw [List.map_append, List.map_singleton, ← List.concat_eq_append]
        exact inductionHypothesis.concat fresh

/-- No identifier is lost. -/
theorem mem_map_id_keepFirst {fragments : List Fragment} {id : String} :
    id ∈ (keepFirst fragments).map Fragment.id ↔ id ∈ fragments.map Fragment.id := by
  induction fragments using List.reverseRecOn with
  | nil => rfl
  | append_singleton fragments last inductionHypothesis =>
      rw [keepFirst_concat]
      split
      · rename_i again
        rw [List.map_append, List.mem_append, ← inductionHypothesis]
        refine (or_iff_left_of_imp fun member => ?_).symm
        rw [List.map_singleton, List.mem_singleton] at member
        exact member ▸ again
      · rw [List.map_append, List.mem_append, inductionHypothesis, List.map_append,
          List.mem_append]

/-- Behind other fragments, fragments with different identifiers are kept unless their identifiers
were there. -/
theorem keepFirst_append (first : List Fragment) {second : List Fragment}
    (distinct : (second.map Fragment.id).Nodup) :
    keepFirst (first ++ second) =
      keepFirst first ++ second.filter fun fragment => fragment.id ∉ first.map Fragment.id := by
  induction second using List.reverseRecOn with
  | nil => simp
  | append_singleton second last inductionHypothesis =>
      rw [List.map_append, List.map_singleton, ← List.concat_eq_append,
        List.nodup_concat] at distinct
      have again : last.id ∈ (keepFirst (first ++ second)).map Fragment.id ↔
          last.id ∈ first.map Fragment.id := by
        rw [mem_map_id_keepFirst, List.map_append, List.mem_append]
        exact or_iff_left distinct.1
      rw [← List.append_assoc, keepFirst_concat, List.filter_append, ← List.append_assoc,
        ← inductionHypothesis distinct.2]
      by_cases there : last.id ∈ first.map Fragment.id
      · rw [if_pos (again.2 there), List.filter_cons_of_neg (by simpa using there), List.filter_nil,
          List.append_nil]
      · rw [if_neg (mt again.1 there), List.filter_cons_of_pos (by simpa using there),
          List.filter_nil]

/-- Fragments that are found by their identifiers are kept in the order in which these come first. -/
theorem pairwise_keepFirst_filterMap {find : String → Option Fragment}
    (labelled : ∀ id fragment, find id = some fragment → fragment.id = id) (ids : List String) :
    (keepFirst (ids.filterMap find)).Pairwise fun earlier later =>
      ids.idxOf earlier.id < ids.idxOf later.id := by
  induction ids using List.reverseRecOn with
  | nil => exact .nil
  | append_singleton ids last inductionHypothesis =>
      have inside {fragment : Fragment} (member : fragment ∈ keepFirst (ids.filterMap find)) :
          fragment.id ∈ ids := by
        obtain ⟨id, listed, found⟩ := List.mem_filterMap.1 ((keepFirst_sublist _).subset member)
        exact labelled id fragment found ▸ listed
      have earlier : (keepFirst (ids.filterMap find)).Pairwise fun earlier later =>
          (ids ++ [last]).idxOf earlier.id < (ids ++ [last]).idxOf later.id := by
        refine inductionHypothesis.imp_of_mem fun {first second} firstIn secondIn less => ?_
        rwa [List.idxOf_append_of_mem (inside firstIn), List.idxOf_append_of_mem (inside secondIn)]
      rw [List.filterMap_append]
      cases found : find last with
      | none =>
          rw [List.filterMap_cons_none found, List.filterMap_nil, List.append_nil]
          exact earlier
      | some fragment =>
          rw [List.filterMap_cons_some found, List.filterMap_nil, keepFirst_concat]
          split
          · exact earlier
          · rename_i fresh
            have same := labelled last fragment found
            have new : last ∉ ids := by
              intro listed
              rw [mem_map_id_keepFirst] at fresh
              exact fresh (List.mem_map_of_mem (List.mem_filterMap.2 ⟨last, listed, found⟩))
            -- The kept ones stand in `ids`, and the new one at the position behind.
            refine List.pairwise_append.2 ⟨earlier, List.pairwise_singleton _ _, ?_⟩
            intro first member second single
            obtain rfl := List.mem_singleton.1 single
            have before := List.idxOf_lt_length_of_mem (inside member)
            rw [List.idxOf_append_of_mem (inside member), same, List.idxOf_append_of_notMem new]
            omega

theorem find?_eq_some_iff {index : KnowledgeIndex}
    (distinct : (index.fragments.map Fragment.id).Nodup) {id : String} {fragment : Fragment} :
    index.find? id = some fragment ↔ fragment ∈ index.fragments ∧ fragment.id = id := by
  rw [find?]
  constructor
  · intro found
    exact ⟨List.mem_of_find?_eq_some found, by simpa using List.find?_some found⟩
  · rintro ⟨member, rfl⟩
    cases found : index.fragments.find? fun other => other.id == fragment.id with
    | none => exact absurd (List.find?_eq_none.1 found fragment member) (by simp)
    | some other =>
        have same : other.id = fragment.id := by simpa using List.find?_some found
        have equal := List.inj_on_of_nodup_map distinct (List.mem_of_find?_eq_some found) member same
        exact congrArg some equal

end WorkflowBundle.KnowledgeIndex
