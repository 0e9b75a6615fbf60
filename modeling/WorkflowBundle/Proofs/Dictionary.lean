/-
This file says what a dictionary holds under a name after its operations.
-/

import WorkflowBundle.Dictionary

namespace WorkflowBundle.Dictionary

variable {α β : Type}

@[simp] theorem find?_empty (name : String) : (∅ : Dictionary α).find? name = none := rfl

theorem mem_of_lookup {entries : List (String × α)} {name : String} {value : α}
    (found : entries.lookup name = some value) : (name, value) ∈ entries := by
  induction entries with
  | nil => simp at found
  | cons entry rest inductionHypothesis =>
      obtain ⟨key, first⟩ := entry
      rw [lookup_entry] at found
      split at found
      · rename_i same
        obtain rfl : first = value := by simpa using found
        exact same ▸ List.mem_cons_self
      · exact List.mem_cons_of_mem _ (inductionHypothesis found)

/-- Under ascending names the value of an entry is found by its name. -/
theorem lookup_of_mem {entries : List (String × α)} {name : String} {value : α}
    (ascending : entries.Pairwise fun earlier later => earlier.1 < later.1)
    (member : (name, value) ∈ entries) : entries.lookup name = some value := by
  induction entries with
  | nil => simp at member
  | cons entry rest inductionHypothesis =>
      obtain ⟨key, first⟩ := entry
      obtain ⟨above, ordered⟩ := List.pairwise_cons.1 ascending
      rw [lookup_entry]
      rcases List.mem_cons.1 member with equal | later
      · obtain ⟨rfl, rfl⟩ := Prod.mk.inj equal
        simp
      · have different : name ≠ key := by
          rintro rfl
          exact absurd (above _ later) (String.lt_irrefl _)
        rw [if_neg different]
        exact inductionHypothesis ordered later

theorem find?_eq_some_iff (dictionary : Dictionary α) (name : String) (value : α) :
    dictionary.find? name = some value ↔ (name, value) ∈ dictionary.entries :=
  ⟨mem_of_lookup, lookup_of_mem dictionary.ascending⟩

/-- Entries inserted one after another hide what was there, and the last one of a name counts. -/
theorem find?_foldl_insert (entries : List (String × α)) (dictionary : Dictionary α)
    (name : String) :
    (entries.foldl (fun result entry => result.insert entry.1 entry.2) dictionary).find? name =
      (entries.reverse.lookup name).or (dictionary.find? name) := by
  induction entries generalizing dictionary with
  | nil => simp
  | cons entry rest inductionHypothesis =>
      obtain ⟨key, value⟩ := entry
      rw [List.foldl_cons, inductionHypothesis, find?_insert, List.reverse_cons,
        List.lookup_append, lookup_entry]
      by_cases same : name = key <;> simp [same]

theorem find?_ofList (entries : List (String × α)) (name : String) :
    (ofList entries).find? name = entries.reverse.lookup name := by
  have folded := find?_foldl_insert entries empty name
  rw [ofList, folded]
  exact Option.or_none

theorem lookup_reverse_entries (dictionary : Dictionary α) (name : String) :
    dictionary.entries.reverse.lookup name = dictionary.find? name := by
  rcases found : dictionary.entries.reverse.lookup name with _ | value
  · refine (List.lookup_eq_none_iff.2 ?_).symm
    intro entry member
    exact List.lookup_eq_none_iff.1 found entry (List.mem_reverse.2 member)
  · have member := List.mem_reverse.1 (mem_of_lookup found)
    exact ((find?_eq_some_iff dictionary name value).2 member).symm

@[simp] theorem find?_overlay (lower upper : Dictionary α) (name : String) :
    (lower.overlay upper).find? name = (upper.find? name).or (lower.find? name) := by
  rw [overlay, find?_foldl_insert, lookup_reverse_entries]

theorem eq_of_find?_eq {first second : Dictionary α}
    (same : ∀ name, first.find? name = second.find? name) : first = second := by
  have distinct (dictionary : Dictionary α) : dictionary.entries.Nodup := by
    refine dictionary.ascending.imp ?_
    rintro earlier later less rfl
    exact String.lt_irrefl _ less
  have members (entry : String × α) : entry ∈ first.entries ↔ entry ∈ second.entries := by
    rw [← find?_eq_some_iff first entry.1 entry.2, ← find?_eq_some_iff second entry.1 entry.2,
      same]
  have permuted := (List.perm_ext_iff_of_nodup (distinct first) (distinct second)).2 members
  have equal : first.entries = second.entries := by
    refine permuted.eq_of_pairwise ?_ first.ascending second.ascending
    intro earlier later _ _ less greater
    exact absurd (String.lt_trans less greater) (String.lt_irrefl _)
  obtain ⟨entries, ascending⟩ := first
  cases second
  cases equal
  rfl

theorem ofList_entries (dictionary : Dictionary α) : ofList dictionary.entries = dictionary :=
  eq_of_find?_eq fun name => (find?_ofList _ name).trans (lookup_reverse_entries dictionary name)

end WorkflowBundle.Dictionary
