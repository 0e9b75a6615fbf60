/-
This file resolves the steps of a path against one another, without looking at any file, and says when
they lead below a place.
-/

import Mathlib.Data.List.Infix
import WorkflowBundle.Path

namespace WorkflowBundle.Path

open List (replicate)

/-- Components other than the root, a current directory and a step to the parent are names. -/
def Component.isName : Component → Bool
  | .name _ => true
  | _ => false

/-- A step to the parent takes back the name before it. It stays at the root, and it is kept where there
is nothing to take back. -/
def advance (place : List Component) : Component → List Component
  | .root => [.root]
  | .current => place
  | .name text => place ++ [.name text]
  | .parent =>
    match place.getLast? with
    | some (.name _) => place.dropLast
    | some .root => place
    | _ => place ++ [.parent]

/-- The steps of a path are resolved one after the other. -/
def resolve (steps : List Component) : List Component :=
  steps.foldl advance []

/-- A place is below another one when it goes on behind it. -/
def IsBelow (place base : List Component) : Prop :=
  base <+: place ∧ base ≠ place

instance (place base : List Component) : Decidable (IsBelow place base) :=
  inferInstanceAs (Decidable (_ ∧ _))

/-- A resolved place has names behind the root or behind steps to the parent. -/
structure IsResolved (base names : List Component) : Prop where
  base : base = [.root] ∨ ∀ component ∈ base, component = .parent
  named : ∀ component ∈ names, component.isName = true

/-- A way climbs and goes on through names. From a place it leads below it when it comes back through
the names that it has left, or when there was no name to leave. -/
inductive LeadsBelow (place : List Component) : List Component → Prop where
  | again {kept left names : List Component} (shape : place = kept ++ left)
      (leftNamed : ∀ component ∈ left, component.isName = true)
      (named : ∀ component ∈ names, component.isName = true) (back : IsBelow names left) :
      LeadsBelow place (replicate left.length .parent ++ names)
  | root {climb : Nat} {left names : List Component} (shape : place = .root :: left)
      (leftNamed : ∀ component ∈ left, component.isName = true)
      (named : ∀ component ∈ names, component.isName = true) (exceeds : left.length < climb)
      (back : IsBelow names left) : LeadsBelow place (replicate climb .parent ++ names)
  | above {climb : Nat} {names : List Component} (shape : ∀ component ∈ place, component = .parent)
      (named : ∀ component ∈ names, component.isName = true) (climbs : 0 < climb) :
      LeadsBelow place (replicate climb .parent ++ names)

section

variable {place base names left steps way : List Component} {climb : Nat}

/-- What two places have in common at their start does not matter for which one is below. -/
theorem isBelow_append_iff (front : List Component) :
    IsBelow (front ++ place) (front ++ base) ↔ IsBelow place base := by
  rw [IsBelow, IsBelow, List.prefix_append_right_inj, ne_eq, List.append_cancel_left_eq]

theorem isBelow_append (further : steps ≠ []) : IsBelow (base ++ steps) base := by
  refine ⟨List.prefix_append base steps, fun same => further ?_⟩
  simpa using same.symm

/-- A step to the parent is kept behind other ones. -/
theorem advance_parent_of_above (above : ∀ component ∈ place, component = .parent) :
    advance place .parent = place ++ [.parent] := by
  rcases last : place.getLast? with _ | component
  · simp only [advance, last]
  · obtain rfl := above component (List.mem_of_getLast? last)
    simp only [advance, last]

theorem advance_parent_concat {component : Component} (named : component.isName = true) :
    advance (place ++ [component]) .parent = place := by
  cases component with
  | name text => simp [advance]
  | _ => nomatch named

theorem advance_of_isName {component : Component} (named : component.isName = true) :
    advance place component = place ++ [component] := by
  cases component with
  | name text => rfl
  | _ => nomatch named

/-- Names lead below every place. -/
theorem foldl_advance_names (named : ∀ component ∈ names, component.isName = true) :
    names.foldl advance place = place ++ names := by
  induction names generalizing place with
  | nil => simp
  | cons component rest inductionHypothesis =>
      obtain ⟨here, later⟩ := List.forall_mem_cons.1 named
      rw [List.foldl_cons, advance_of_isName here, inductionHypothesis later, ← List.append_cons]

/-- As many steps to the parent as there are names take these names back. -/
theorem foldl_advance_back (named : ∀ component ∈ left, component.isName = true) :
    (replicate left.length .parent).foldl advance (base ++ left) = base := by
  induction left using List.reverseRecOn with
  | nil => simp
  | append_singleton left component inductionHypothesis =>
      obtain ⟨earlier, last⟩ := List.forall_mem_append.1 named
      rw [List.length_append, List.length_singleton, List.replicate_succ, List.foldl_cons,
        ← List.append_assoc, advance_parent_concat (last component List.mem_cons_self)]
      exact inductionHypothesis earlier

/-- Steps to the parent that are more than the names go on from the place before the names. -/
theorem foldl_advance_over (named : ∀ component ∈ left, component.isName = true)
    (enough : left.length ≤ climb) :
    (replicate climb .parent).foldl advance (base ++ left) =
      (replicate (climb - left.length) .parent).foldl advance base := by
  obtain ⟨more, rfl⟩ := Nat.exists_eq_add_of_le enough
  rw [Nat.add_sub_cancel_left, List.replicate_add, List.foldl_append, foldl_advance_back named]

/-- Steps to the parent stay at the root. -/
theorem foldl_advance_root (climb : Nat) :
    (replicate climb .parent).foldl advance [.root] = [.root] := by
  induction climb with
  | zero => rfl
  | succ climb inductionHypothesis => exact inductionHypothesis

/-- Steps to the parent are kept behind other ones. -/
theorem foldl_advance_above (above : ∀ component ∈ place, component = .parent) (climb : Nat) :
    (replicate climb .parent).foldl advance place = place ++ replicate climb .parent := by
  induction climb generalizing place with
  | zero => simp
  | succ climb inductionHypothesis =>
      have still : ∀ component ∈ place ++ [.parent], component = .parent :=
        List.forall_mem_append.2 ⟨above, by simp⟩
      rw [List.replicate_succ, List.foldl_cons, advance_parent_of_above above,
        inductionHypothesis still, ← List.append_cons]

/-- A step from a resolved place ends at a resolved place, and the way over the first place and this
step is the way over the second one. -/
theorem IsResolved.advance (resolved : IsResolved base names) (step : Component) :
    (∃ base' names', Path.advance (base ++ names) step = base' ++ names' ∧
      IsResolved base' names') ∧
    ∀ start, (Path.advance (base ++ names) step).foldl Path.advance start =
      Path.advance ((base ++ names).foldl Path.advance start) step := by
  cases step with
  | root => exact ⟨⟨[.root], [], rfl, .inl rfl, by simp⟩, fun _ => rfl⟩
  | current => exact ⟨⟨base, names, rfl, resolved⟩, fun _ => rfl⟩
  | name text =>
      refine ⟨⟨base, names ++ [.name text], List.append_assoc _ _ _, resolved.base, ?_⟩,
        fun start => List.foldl_append⟩
      exact List.forall_mem_append.2 ⟨resolved.named, by simp [Component.isName]⟩
  | parent =>
      rcases List.eq_nil_or_concat' names with rfl | ⟨names, component, rfl⟩
      · rw [List.append_nil]
        rcases resolved.base with rfl | above
        · exact ⟨⟨[.root], [], rfl, .inl rfl, by simp⟩, fun _ => rfl⟩
        · rw [advance_parent_of_above above]
          refine ⟨⟨base ++ [.parent], [], (List.append_nil _).symm, .inr ?_, by simp⟩,
            fun start => List.foldl_append⟩
          exact List.forall_mem_append.2 ⟨above, by simp⟩
      · obtain ⟨named, lastNamed⟩ := List.forall_mem_append.1 resolved.named
        have isName := lastNamed component List.mem_cons_self
        rw [← List.append_assoc, advance_parent_concat isName]
        refine ⟨⟨base, names, rfl, resolved.base, named⟩, fun start => ?_⟩
        have last : ∀ place : List Component, (place ++ [component]).foldl Path.advance start =
            place.foldl Path.advance start ++ [component] := by
          intro place
          rw [List.foldl_append, List.foldl_cons, List.foldl_nil, advance_of_isName isName]
        rw [last, advance_parent_concat isName]

/-- Steps are resolved to a resolved place, and from every start they lead where that place does. -/
theorem exists_isResolved (steps : List Component) :
    (∃ base names, resolve steps = base ++ names ∧ IsResolved base names) ∧
      ∀ start, (resolve steps).foldl advance start = steps.foldl advance start := by
  induction steps using List.reverseRecOn with
  | nil => exact ⟨⟨[], [], rfl, .inr (by simp), by simp⟩, fun _ => rfl⟩
  | append_singleton steps step inductionHypothesis =>
      obtain ⟨⟨base, names, shape, resolved⟩, same⟩ := inductionHypothesis
      have last : resolve (steps ++ [step]) = advance (base ++ names) step := by
        rw [resolve, List.foldl_append, ← resolve, shape]
        rfl
      obtain ⟨further, way⟩ := resolved.advance step
      rw [last]
      refine ⟨further, fun start => ?_⟩
      rw [way, ← shape, same, List.foldl_append]
      rfl

theorem resolve_append (first second : List Component) :
    resolve (first ++ second) = (resolve second).foldl advance (resolve first) := by
  rw [(exists_isResolved second).2, resolve, List.foldl_append]
  rfl

/-- Steps without the root are not resolved to it. -/
theorem root_not_mem_resolve (relative : .root ∉ steps) : .root ∉ resolve steps := by
  induction steps using List.reverseRecOn with
  | nil => exact List.not_mem_nil
  | append_singleton steps step inductionHypothesis =>
      rw [List.mem_append, not_or] at relative
      have before := inductionHypothesis relative.1
      rw [resolve, List.foldl_append, ← resolve]
      cases step with
      | root => simp at relative
      | current => exact before
      | name text => simpa [advance] using before
      | parent =>
          simp only [List.foldl_cons, List.foldl_nil, advance]
          split
          · exact fun member => before (List.mem_of_mem_dropLast member)
          · exact before
          · simpa using before

/-- Steps without the root climb, and then they go on through names. -/
theorem exists_climb (relative : .root ∉ steps) :
    ∃ climb names, resolve steps = replicate climb Component.parent ++ names ∧
      ∀ component ∈ names, component.isName = true := by
  obtain ⟨⟨base, names, shape, resolved⟩, -⟩ := exists_isResolved steps
  have noRoot := root_not_mem_resolve relative
  rw [shape] at noRoot
  rcases resolved.base with rfl | above
  · simp at noRoot
  · exact ⟨base.length, names, by rw [shape, List.eq_replicate_of_mem above]; simp, resolved.named⟩

/-- Steps without one to the parent that are no current directories are resolved to themselves. -/
theorem resolve_of_names (named : ∀ component ∈ steps, component.isName = true) :
    resolve steps = steps :=
  (foldl_advance_names named).trans (List.nil_append steps)

/-- From a resolved place a climb and some names lead below it in exactly the three ways. -/
theorem isBelow_foldl_iff (resolved : IsResolved base left)
    (climbs : way = replicate climb Component.parent ++ names)
    (named : ∀ component ∈ names, component.isName = true) :
    IsBelow (way.foldl advance (base ++ left)) (base ++ left) ↔ LeadsBelow (base ++ left) way := by
  constructor
  · intro below
    obtain rfl := climbs
    rw [List.foldl_append, foldl_advance_names named] at below
    rcases Nat.lt_or_ge left.length climb with exceeds | few
    · rw [foldl_advance_over resolved.named exceeds.le] at below
      rcases resolved.base with rfl | above
      · rw [foldl_advance_root, isBelow_append_iff] at below
        exact .root rfl resolved.named named exceeds below
      · rw [foldl_advance_above above, List.append_assoc, isBelow_append_iff] at below
        obtain ⟨more, rfl⟩ := Nat.exists_eq_add_of_lt exceeds
        cases left with
        | nil => exact .above (by simpa using above) named (Nat.zero_lt_of_lt exceeds)
        | cons component left =>
            -- The place goes on with a name, and the way with a step to the parent.
            have further : (component :: left).length + more + 1 - (component :: left).length =
                more + 1 := by
              omega
            rw [further, List.replicate_succ, List.cons_append] at below
            obtain rfl := (List.cons_prefix_cons.1 below.1).1
            nomatch resolved.named _ List.mem_cons_self
    · let kept := left.take (left.length - climb)
      let gone := left.drop (left.length - climb)
      have shape : base ++ left = base ++ kept ++ gone := by
        rw [List.append_assoc, List.take_append_drop]
      have length : gone.length = climb := by
        rw [List.length_drop, Nat.sub_sub_self few]
      have goneNamed : ∀ component ∈ gone, component.isName = true :=
        fun component member => resolved.named component (List.mem_of_mem_drop member)
      rw [shape, ← length, foldl_advance_back goneNamed, isBelow_append_iff] at below
      rw [← length]
      exact .again shape goneNamed named below
  · rintro (⟨shape, leftNamed, named, back⟩ | ⟨shape, leftNamed, named, exceeds, back⟩ |
      ⟨above, named, positive⟩)
    · rwa [List.foldl_append, foldl_advance_names named, shape, foldl_advance_back leftNamed,
        isBelow_append_iff]
    · rw [List.foldl_append, foldl_advance_names named, shape, ← List.singleton_append,
        foldl_advance_over leftNamed exceeds.le, foldl_advance_root, isBelow_append_iff]
      exact back
    · rw [List.foldl_append, foldl_advance_names named, foldl_advance_above above,
        List.append_assoc]
      apply isBelow_append
      simp [Nat.ne_of_gt positive]

/-- Steps that are followed by a way without the root lead below them exactly in the three ways. -/
theorem isBelow_resolve_append_iff (relative : .root ∉ way) :
    IsBelow (resolve (steps ++ way)) (resolve steps) ↔ LeadsBelow (resolve steps) (resolve way) := by
  obtain ⟨⟨base, left, place, resolved⟩, -⟩ := exists_isResolved steps
  obtain ⟨climb, names, climbs, named⟩ := exists_climb relative
  rw [resolve_append, place]
  exact isBelow_foldl_iff resolved climbs named

theorem leadsBelow_of_names (named : ∀ component ∈ names, component.isName = true)
    (further : names ≠ []) : LeadsBelow place names :=
  .again (List.append_nil place).symm (by simp) named (isBelow_append further)

end

end WorkflowBundle.Path
