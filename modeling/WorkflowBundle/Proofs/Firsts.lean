/-
This file says what it means to list the first item of each key, and shows that a fold that keeps
items with new keys does so.
-/

import Mathlib.Data.List.Forall2
import Mathlib.Data.List.Induction
import Mathlib.Data.List.ReduceOption
import Mathlib.Data.List.Sort
import Mathlib.Data.Nat.Find

namespace WorkflowBundle.Firsts

variable {α β κ : Type}

/-- An item is the first one of its key at a place when no earlier place offers one with this key. -/
def IsFirst (offers : Nat → α → Prop) (key : α → κ) (place : Nat) (item : α) : Prop :=
  offers place item ∧ ∀ earlier < place, ∀ other, offers earlier other → key other ≠ key item

/-- A list has the first items of all keys that are offered, in the order of their places. -/
def ListsFirsts (offers : Nat → α → Prop) (key : α → κ) (items : List α) : Prop :=
  ∃ places : List Nat, places.Pairwise (· < ·) ∧
    (∀ place, place ∈ places ↔ ∃ item, IsFirst offers key place item) ∧
    List.Forall₂ (IsFirst offers key) places items

/-- Every item on the right has a partner on the left. -/
theorem exists_left_of_mem {relation : α → β → Prop} {lefts : List α} {rights : List β}
    (paired : List.Forall₂ relation lefts rights) {right : β} (member : right ∈ rights) :
    ∃ left ∈ lefts, relation left right := by
  induction paired with
  | nil => nomatch member
  | @cons left other lefts rights related _ inductionHypothesis =>
      rcases List.mem_cons.1 member with rfl | later
      · exact ⟨left, List.mem_cons_self, related⟩
      · obtain ⟨found, inside, partner⟩ := inductionHypothesis later
        exact ⟨found, List.mem_cons_of_mem _ inside, partner⟩

section

variable {offers others : Nat → α → Prop} {key : α → κ} {items : List α}

/-- Listing firsts depends on what is offered at each place and on nothing else. -/
theorem ListsFirsts.congr (same : ∀ place item, offers place item ↔ others place item)
    (lists : ListsFirsts offers key items) : ListsFirsts others key items := by
  have equal : offers = others := by
    funext place item
    exact propext (same place item)
  exact equal ▸ lists

/-- Every item of a list of firsts is first at some place. -/
theorem ListsFirsts.exists_isFirst (lists : ListsFirsts offers key items) {item : α}
    (member : item ∈ items) : ∃ place, IsFirst offers key place item := by
  obtain ⟨places, -, -, each⟩ := lists
  obtain ⟨place, -, first⟩ := exists_left_of_mem each member
  exact ⟨place, first⟩

/-- The items of a list of firsts have different keys. -/
theorem ListsFirsts.pairwise (lists : ListsFirsts offers key items) :
    items.Pairwise fun earlier later => key earlier ≠ key later := by
  obtain ⟨places, ascending, -, each⟩ := lists
  induction each with
  | nil => exact .nil
  | @cons place item places items first rest inductionHypothesis =>
      obtain ⟨above, ordered⟩ := List.pairwise_cons.1 ascending
      refine List.pairwise_cons.2 ⟨?_, inductionHypothesis ordered⟩
      intro other member
      obtain ⟨behind, inside, later⟩ := exists_left_of_mem rest member
      exact later.2 place (above behind inside) item first.1

/-- Where each place offers at most one item, every key that is offered is listed. -/
theorem ListsFirsts.exists_mem (lists : ListsFirsts offers key items)
    (single : ∀ place first second, offers place first → offers place second → first = second)
    {place : Nat} {item : α} (offered : offers place item) : ∃ kept ∈ items, key kept = key item := by
  classical
  obtain ⟨places, -, all, each⟩ := lists
  -- The first item with this key stands at the least place that offers one.
  have some : ∃ earliest, ∃ other, offers earliest other ∧ key other = key item :=
    ⟨place, item, offered, rfl⟩
  obtain ⟨other, there, same⟩ := Nat.find_spec some
  have first : IsFirst offers key (Nat.find some) other := by
    refine ⟨there, fun earlier less another given equal => ?_⟩
    exact Nat.find_min some less ⟨another, given, equal.trans same⟩
  have listed := (all (Nat.find some)).2 ⟨other, first⟩
  obtain ⟨kept, member, alsoFirst⟩ :=
    exists_left_of_mem (List.Forall₂.flip (R := flip (IsFirst offers key)) each) listed
  exact ⟨kept, member, (congrArg key (single _ _ _ alsoFirst.1 there)).trans same⟩

/-- Where each place offers at most one item, there is one list of firsts. -/
theorem ListsFirsts.unique {more : List α} (lists : ListsFirsts offers key items)
    (again : ListsFirsts offers key more)
    (single : ∀ place first second, offers place first → offers place second → first = second) :
    items = more := by
  obtain ⟨places, ascending, all, each⟩ := lists
  obtain ⟨samePlaces, alsoAscending, alsoAll, alsoEach⟩ := again
  obtain rfl : places = samePlaces :=
    ascending.eq_of_mem_iff alsoAscending fun place => (all place).trans (alsoAll place).symm
  apply List.right_unique_forall₂' _ each alsoEach
  intro place first second isFirst alsoFirst
  exact single place first second isFirst.1 alsoFirst.1

end

section

variable {offered : List (Option α)} {last : Option α} {place : Nat} {key : α → κ} {items : List α}

/-- The items of a list of options are offered at their places in it. -/
def offersOf (offered : List (Option α)) (place : Nat) (item : α) : Prop :=
  offered[place]? = some (some item)

/-- A place offers at most one item. -/
theorem offersOf_single (offered : List (Option α)) (place : Nat) (first second : α)
    (one : offersOf offered place first) (another : offersOf offered place second) :
    first = second :=
  Option.some.inj (Option.some.inj (one.symm.trans another))

/-- A place that offers an item is a place of the list. -/
theorem lt_length_of_offersOf {item : α} (given : offersOf offered place item) :
    place < offered.length :=
  (List.getElem?_eq_some_iff.1 given).1

/-- A last option does not change what the places before it offer. -/
theorem offersOf_concat (inside : place < offered.length) (item : α) :
    offersOf (offered ++ [last]) place item ↔ offersOf offered place item := by
  rw [offersOf, offersOf, List.getElem?_append_left inside]

/-- A last option is offered at the last place. -/
theorem offersOf_length (item : α) :
    offersOf (offered ++ [last]) offered.length item ↔ last = some item := by
  simp [offersOf]

/-- A last option does not change which items are first at the places before it. -/
theorem isFirst_concat (inside : place < offered.length) (item : α) :
    IsFirst (offersOf (offered ++ [last])) key place item ↔
      IsFirst (offersOf offered) key place item := by
  have before (earlier : Nat) (less : earlier < place) (other : α) :
      offersOf (offered ++ [last]) earlier other ↔ offersOf offered earlier other :=
    offersOf_concat (Nat.lt_trans less inside) other
  rw [IsFirst, IsFirst, offersOf_concat inside]
  refine and_congr_right fun _ => forall_congr' fun earlier => forall_congr' fun less => ?_
  exact forall_congr' fun other => imp_congr_left (before earlier less other)

/-- A last option is first at its place when its key was not offered before. -/
theorem isFirst_length (item : α) :
    IsFirst (offersOf (offered ++ [last])) key offered.length item ↔
      last = some item ∧ ∀ earlier other, offersOf offered earlier other → key other ≠ key item := by
  rw [IsFirst, offersOf_length]
  refine and_congr_right fun _ => forall_congr' fun earlier => ?_
  constructor
  · intro apart other given
    have less := lt_length_of_offersOf given
    exact apart less other ((offersOf_concat less other).2 given)
  · intro apart less other given
    exact apart other ((offersOf_concat less other).1 given)

/-- A list of firsts stays one when the key of a last option was offered before. -/
theorem ListsFirsts.concat_of_known (lists : ListsFirsts (offersOf offered) key items)
    (known : ∀ item, last = some item → ∃ kept ∈ items, key kept = key item) :
    ListsFirsts (offersOf (offered ++ [last])) key items := by
  have isFirst {kept : α} (member : kept ∈ items) := lists.exists_isFirst member
  obtain ⟨places, ascending, all, each⟩ := lists
  refine ⟨places, ascending, fun place => (all place).trans ?_, ?_⟩
  · refine exists_congr fun item => ⟨fun first => ?_, fun first => ?_⟩
    · exact (isFirst_concat (lt_length_of_offersOf first.1) item).2 first
    · have less := lt_length_of_offersOf first.1
      rw [List.length_append, List.length_singleton] at less
      rcases Nat.lt_succ_iff_lt_or_eq.1 less with inside | rfl
      · exact (isFirst_concat inside item).1 first
      · obtain ⟨same, apart⟩ := (isFirst_length item).1 first
        obtain ⟨kept, member, equal⟩ := known item same
        obtain ⟨earlier, given, -⟩ := isFirst member
        exact absurd equal (apart earlier kept given)
  · refine each.imp fun place item first => ?_
    exact (isFirst_concat (lt_length_of_offersOf first.1) item).2 first

/-- A last item with a new key joins a list of firsts. -/
theorem ListsFirsts.concat_of_new {last : α} (lists : ListsFirsts (offersOf offered) key items)
    (new : ¬ ∃ kept ∈ items, key kept = key last) :
    ListsFirsts (offersOf (offered ++ [some last])) key (items ++ [last]) := by
  have apart (earlier : Nat) (other : α) (given : offersOf offered earlier other) :
      key other ≠ key last := by
    intro equal
    obtain ⟨kept, member, same⟩ := lists.exists_mem (offersOf_single offered) given
    exact new ⟨kept, member, same.trans equal⟩
  obtain ⟨places, ascending, all, each⟩ := lists
  have within : ∀ place ∈ places, place < offered.length := by
    intro place member
    obtain ⟨item, first⟩ := (all place).1 member
    exact lt_length_of_offersOf first.1
  have lastFirst : IsFirst (offersOf (offered ++ [some last])) key offered.length last :=
    (isFirst_length last).2 ⟨rfl, apart⟩
  refine ⟨places ++ [offered.length], ?_, fun place => ?_, ?_⟩
  · refine List.pairwise_append.2 ⟨ascending, List.pairwise_singleton _ _, ?_⟩
    intro place member other single
    exact List.mem_singleton.1 single ▸ within place member
  · rw [List.mem_append, List.mem_singleton]
    constructor
    · rintro (member | rfl)
      · obtain ⟨item, first⟩ := (all place).1 member
        exact ⟨item, (isFirst_concat (within place member) item).2 first⟩
      · exact ⟨last, lastFirst⟩
    · rintro ⟨item, first⟩
      have less := lt_length_of_offersOf first.1
      rw [List.length_append, List.length_singleton] at less
      rcases Nat.lt_succ_iff_lt_or_eq.1 less with inside | same
      · exact .inl ((all place).2 ⟨item, (isFirst_concat inside item).1 first⟩)
      · exact .inr same
  · refine List.rel_append (each.imp fun place item first => ?_) (.cons lastFirst .nil)
    exact (isFirst_concat (lt_length_of_offersOf first.1) item).2 first

end

section

variable [BEq κ] [LawfulBEq κ] {key : α → κ}

/-- Items are kept when no kept one has their key. -/
def keepNew (key : α → κ) (items : List α) : List α :=
  items.foldl (fun kept item => if kept.any fun other => key other == key item then kept
    else kept ++ [item]) []

/-- A last item is kept when no kept one has its key. -/
theorem keepNew_concat (key : α → κ) (items : List α) (last : α) :
    keepNew key (items ++ [last]) =
      if key last ∈ (keepNew key items).map key then keepNew key items
      else keepNew key items ++ [last] := by
  rw [keepNew, List.foldl_append, List.foldl_cons, List.foldl_nil, ← keepNew]
  apply if_congr _ rfl rfl
  rw [List.any_eq_true, List.mem_map]
  exact exists_congr fun other => and_congr_right fun _ => beq_iff_eq

/-- Keeping the items with new keys lists the first items. -/
theorem listsFirsts_keepNew (offered : List (Option α)) :
    ListsFirsts (offersOf offered) key (keepNew key offered.reduceOption) := by
  -- Items are kept from the first to the last, so the induction adds options at the end.
  induction offered using List.reverseRecOn with
  | nil =>
      refine ⟨[], .nil, fun place => ?_, .nil⟩
      simp [IsFirst, offersOf]
  | append_singleton offered last inductionHypothesis =>
      rw [List.reduceOption_append]
      cases last with
      | none =>
          rw [List.reduceOption_cons_of_none, List.reduceOption_nil, List.append_nil]
          exact inductionHypothesis.concat_of_known nofun
      | some last =>
          rw [List.reduceOption_cons_of_some, List.reduceOption_nil, keepNew_concat]
          split
          · rename_i known
            apply inductionHypothesis.concat_of_known
            intro item same
            exact Option.some.inj same ▸ List.mem_map.1 known
          · rename_i new
            exact inductionHypothesis.concat_of_new (mt List.mem_map.2 new)

end

end WorkflowBundle.Firsts
