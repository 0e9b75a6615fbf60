/-
This file shows that the rest of an absolute path below a base leads back to the path.
-/

import WorkflowBundle.Proofs.Path.Join

namespace WorkflowBundle.Path

section

variable {parts : List (List Char)}

theorem filterMap_eq_nil_of_noStep (noStep : ∀ piece ∈ parts, (!isStep piece) = true) :
    parts.filterMap componentOf? = [] := by
  rw [List.filterMap_eq_nil_iff]
  intro piece member
  simpa [isStep] using noStep piece member

theorem filterMap_dropSteps (count : Nat) (parts : List (List Char)) :
    (dropSteps count parts).filterMap componentOf? = (parts.filterMap componentOf?).drop count := by
  induction parts generalizing count with
  | nil => cases count <;> rfl
  | cons piece rest inductionHypothesis =>
      cases count with
      | zero => rfl
      | succ count =>
          rw [dropSteps]
          cases component : componentOf? piece with
          | none =>
              rw [if_neg (by simp [isStep, component]), inductionHypothesis,
                List.filterMap_cons_none component]
          | some step =>
              rw [if_pos (by simp [isStep, component]), inductionHypothesis,
                List.filterMap_cons_some component, List.drop_succ_cons]

theorem dropSteps_suffix (count : Nat) (parts : List (List Char)) :
    dropSteps count parts <:+ parts := by
  induction parts generalizing count with
  | nil => cases count <;> exact List.suffix_refl _
  | cons piece rest inductionHypothesis =>
      cases count with
      | zero => exact List.suffix_refl _
      | succ count =>
          rw [dropSteps]
          split <;> exact (inductionHypothesis _).trans (List.suffix_cons piece rest)

def withinSteps (parts : List (List Char)) : List (List Char) :=
  trimPieces (parts.dropWhile fun piece => !isStep piece)

/-- The pieces from the first step to the last one have all components. -/
theorem filterMap_withinSteps (parts : List (List Char)) :
    (withinSteps parts).filterMap componentOf? = parts.filterMap componentOf? := by
  have front : (parts.takeWhile fun piece => !isStep piece).filterMap componentOf? = [] :=
    filterMap_eq_nil_of_noStep fun piece => List.mem_takeWhile_imp
  have back : ((parts.dropWhile fun piece => !isStep piece).rtakeWhile fun piece =>
      !isStep piece).filterMap componentOf? = [] :=
    filterMap_eq_nil_of_noStep fun piece => List.mem_rtakeWhile_imp
  calc
    (withinSteps parts).filterMap componentOf?
      = (withinSteps parts ++ (parts.dropWhile fun piece => !isStep piece).rtakeWhile fun piece =>
          !isStep piece).filterMap componentOf? := by
        rw [List.filterMap_append, back, List.append_nil]
    _ = (parts.dropWhile fun piece => !isStep piece).filterMap componentOf? :=
        congrArg _ List.rdropWhile_append_rtakeWhile
    _ = ((parts.takeWhile fun piece => !isStep piece) ++
          parts.dropWhile fun piece => !isStep piece).filterMap componentOf? := by
        rw [List.filterMap_append, front, List.nil_append]
    _ = parts.filterMap componentOf? := by
        rw [List.takeWhile_append_dropWhile]

theorem withinSteps_subset (parts : List (List Char)) : withinSteps parts ⊆ parts := by
  intro piece member
  exact (List.dropWhile_suffix _).subset ((List.rdropWhile_prefix _ _).subset member)

/-- The pieces from the first step to the last one start and end with a step. -/
theorem isStep_of_end {piece : List Char}
    (ends : (withinSteps parts).head? = some piece ∨ (withinSteps parts).getLast? = some piece) :
    isStep piece = true := by
  rcases ends with first | last
  · obtain ⟨rest, shape⟩ := List.head?_eq_some_iff.1 first
    obtain ⟨behind, whole⟩ : withinSteps parts <+: parts.dropWhile fun piece => !isStep piece :=
      List.rdropWhile_prefix _ _
    rw [shape, List.cons_append] at whole
    have head := List.head?_dropWhile_not (fun piece => !isStep piece) parts
    rw [← whole] at head
    simpa using head
  · obtain ⟨written, rfl⟩ := List.mem_getLast?_eq_getLast last
    have kept : ¬ (!isStep ((withinSteps parts).getLast written)) = true :=
      List.rdropWhile_last_not _ _ written
    simpa using kept

theorem eq_of_componentOf? {piece : List Char} {name : String}
    (component : componentOf? piece = some (.name name)) : String.ofList piece = name := by
  rw [componentOf?] at component
  split at component
  · cases component
  · split at component
    · cases component
    · exact Component.name.inj (Option.some.inj component)

/-- Pieces with at most one component, a name, are written as this name from the first step to the
last one. -/
theorem writePieces_withinSteps {name : Option String}
    (single : parts.filterMap componentOf? = (name.map Component.name).toList) :
    String.ofList (writePieces (withinSteps parts)) = name.getD "" := by
  rw [← filterMap_withinSteps] at single
  cases shape : withinSteps parts with
  | nil =>
      cases name with
      | none => rfl
      | some name => simp [shape] at single
  | cons piece rest =>
      obtain ⟨component, named⟩ := Option.isSome_iff_exists.1
        (@isStep_of_end parts piece (.inl (congrArg List.head? shape)))
      rw [shape, List.filterMap_cons_some named] at single
      cases name with
      | none => cases single
      | some name =>
          obtain ⟨rfl, none⟩ := List.cons.inj single
          -- A further piece would be the last one, which is a step.
          obtain rfl : rest = [] := by
            by_contra written
            have last := List.getLast?_eq_some_getLast written
            have step : isStep (rest.getLast written) = true := by
              apply @isStep_of_end parts
              rw [shape, List.getLast?_cons_of_ne_nil written]
              exact .inr last
            have noStep := List.filterMap_eq_nil_iff.1 none _ (List.getLast_mem written)
            rw [isStep, noStep] at step
            cases step
          have single : writePieces [piece] = piece := by simp [writePieces]
          rw [single]
          exact eq_of_componentOf? named

theorem filterMap_split_writePieces (clean : ∀ part ∈ parts, '/' ∉ part) :
    (split (writePieces parts)).filterMap componentOf? = parts.filterMap componentOf? := by
  cases parts with
  | nil => rfl
  | cons part more => rw [split_writePieces (List.cons_ne_nil _ _) clean]

end

section

variable {path base rest : Path}

/-- The components of an absolute path are the root and the steps of its body. -/
theorem components_of_isAbsolute (absolute : path.isAbsolute = true) :
    path.components = .root :: path.body.filterMap componentOf? ∧
      ∀ piece ∈ path.body, '/' ∉ piece := by
  obtain ⟨behind, shape⟩ := List.head?_eq_some_iff.1 (eq_of_beq absolute)
  have pieces : path.pieces = [] :: split behind := by
    rw [pieces, shape]
    exact split_append [] behind
  have body : path.body = split behind := by
    rw [body, absolute, Bool.true_or, if_pos rfl, pieces, List.tail_cons]
  rw [components, if_pos absolute, body, pieces, List.filterMap_cons_none (by rfl)]
  exact ⟨rfl, fun piece => clean_of_mem_split⟩

theorem root_not_mem_filterMap (parts : List (List Char)) :
    .root ∉ parts.filterMap componentOf? := by
  intro member
  obtain ⟨piece, -, root⟩ := List.mem_filterMap.1 member
  rw [componentOf?] at root
  split at root
  · cases root
  · split at root <;> cases root

theorem isAbsolute_of_components {others : List Component}
    (starts : path.components = .root :: others) : path.isAbsolute = true := by
  by_contra relative
  rw [components, if_neg relative] at starts
  split at starts
  · cases starts
  · exact root_not_mem_filterMap path.pieces (starts ▸ List.mem_cons_self)

/-- The components of a relative reference below an absolute path follow those of the path. -/
theorem components_join {reference : String} (absolute : base.isAbsolute = true)
    (relative : (Path.mk reference).isAbsolute = false) :
    (base.join reference).components =
      base.components ++ (split reference.toList).filterMap componentOf? := by
  have written : base.text ≠ "" := by
    intro empty
    rw [isAbsolute, empty] at absolute
    exact absurd absolute (by decide)
  exact components_join_of_written written relative

/-- Below a base that starts at the root, the rest of a path is written from the first step to the last
one behind those of the base. -/
theorem relativeTo?_eq {others : List Component} (shape : base.components = .root :: others)
    (starts : path.startsWith base = true) :
    path.relativeTo? base =
      some ⟨String.ofList (writePieces (withinSteps (dropSteps others.length path.body)))⟩ := by
  rw [relativeTo?, if_pos starts, shape]
  rfl

/-- Dropping steps of a list of steps drops as many pieces. -/
theorem dropSteps_of_steps {parts : List (List Char)}
    (steps : ∀ piece ∈ parts, isStep piece = true) (count : Nat) :
    dropSteps count parts = parts.drop count := by
  induction parts generalizing count with
  | nil => cases count <;> rfl
  | cons piece rest inductionHypothesis =>
      obtain ⟨step, later⟩ := List.forall_mem_cons.1 steps
      cases count with
      | zero => rfl
      | succ count =>
          rw [dropSteps, if_pos step, inductionHypothesis later, List.drop_succ_cons]

/-- The rest of a path of names below the first of them has the others. -/
theorem relativeTo?_ofNames {names more : List String} (named : ∀ name ∈ names, IsFileName name)
    (moreNamed : ∀ name ∈ more, IsFileName name)
    (shape : base.components = .root :: names.map .name) :
    (ofNames (names ++ more)).relativeTo? base = some (below more) := by
  have allNamed : ∀ name ∈ names ++ more, IsFileName name :=
    List.forall_mem_append.2 ⟨named, moreNamed⟩
  have starts : (ofNames (names ++ more)).startsWith base = true := by
    rw [startsWith, components_ofNames allNamed, shape, List.isPrefixOf_iff_prefix,
      List.map_append]
    exact List.cons_prefix_cons.2 ⟨rfl, List.prefix_append _ _⟩
  rw [relativeTo?_eq shape starts, List.length_map, below]
  by_cases nothing : names ++ more = []
  · obtain ⟨rfl, rfl⟩ := List.append_eq_nil_iff.1 nothing
    decide
  · have body : (ofNames (names ++ more)).body = stepsOfNames (names ++ more) := by
      rw [Path.body, isAbsolute_ofNames, Bool.true_or, if_pos rfl,
        pieces_ofNames nothing allNamed, List.tail_cons]
    have behind : (stepsOfNames (names ++ more)).drop names.length = stepsOfNames more := by
      rw [stepsOfNames, List.map_append, List.drop_left' (List.length_map _), stepsOfNames]
    have kept : withinSteps (stepsOfNames more) = stepsOfNames more := by
      have front : ((stepsOfNames more).dropWhile fun piece => !isStep piece) =
          stepsOfNames more := by
        cases more with
        | nil => rfl
        | cons name rest =>
            have step := isStep_of_mem moreNamed name.toList List.mem_cons_self
            exact List.dropWhile_cons_of_neg (by simp [step])
      rw [withinSteps, front, trimPieces_stepsOfNames moreNamed]
    rw [body, dropSteps_of_steps (isStep_of_mem allNamed), behind, kept]

/-- The components of a relative path of names, joined to an absolute path, come behind those of the
path. -/
theorem components_join_below {names : List String} (absolute : base.isAbsolute = true)
    (named : ∀ name ∈ names, IsFileName name) :
    (base.join (below names).text).components = base.components ++ names.map .name := by
  have relative : (Path.mk (below names).text).isAbsolute = false := isAbsolute_below named
  rw [components_join absolute relative, toList_below,
    filterMap_split_writePieces (clean_stepsOfNames named), filterMap_stepsOfNames named]

theorem eq_of_below_eq {names others : List String} (named : ∀ name ∈ names, IsFileName name)
    (otherNamed : ∀ name ∈ others, IsFileName name)
    (same : (below names).text = (below others).text) : names = others := by
  have root := isAbsolute_ofNames []
  have components := components_join_below root named
  rw [same, components_join_below root otherNamed, List.append_cancel_left_eq] at components
  exact (List.map_injective_iff.2 fun _ _ => Component.name.inj) components.symm

/-- A path without a rest below a base does not start with it. -/
theorem startsWith_eq_false_of_relativeTo? (none : path.relativeTo? base = none) :
    path.startsWith base = false := by
  rw [Bool.eq_false_iff]
  intro starts
  rw [relativeTo?, if_pos starts] at none
  split at none <;> cases none

/-- A relative rest of an absolute path below a base has, joined to the base, the components of the
path. -/
theorem components_join_of_relativeTo? (absolute : path.isAbsolute = true)
    (found : path.relativeTo? base = some rest) (relative : rest.isAbsolute = false) :
    (base.join rest.text).components = path.components := by
  obtain ⟨components, clean⟩ := components_of_isAbsolute absolute
  have starts : path.startsWith base = true := by
    by_contra apart
    rw [relativeTo?, if_neg apart] at found
    cases found
  obtain ⟨behind, whole⟩ := List.isPrefixOf_iff_prefix.1 starts
  cases shape : base.components with
  | nil =>
      -- Below the empty path an absolute path stays absolute.
      rw [relativeTo?, if_pos starts, shape] at found
      obtain rfl := Option.some.inj found
      rw [withBody, if_pos absolute, isAbsolute, String.toList_ofList] at relative
      cases relative
  | cons first others =>
      rw [shape, components, List.cons_append] at whole
      obtain ⟨rfl, steps⟩ := List.cons.inj whole
      obtain rfl := Option.some.inj ((relativeTo?_eq shape starts).symm.trans found)
      have kept : ∀ piece ∈ withinSteps (dropSteps others.length path.body), '/' ∉ piece := by
        intro piece member
        exact clean piece ((dropSteps_suffix _ _).subset (withinSteps_subset _ member))
      rw [components_join (isAbsolute_of_components shape) relative, String.toList_ofList,
        filterMap_split_writePieces kept, filterMap_withinSteps, filterMap_dropSteps, ← steps,
        List.drop_left, shape, components, ← steps, List.cons_append]

example : (Path.mk "/p//kb/./index.csv/").relativeTo? ⟨"/p/"⟩ = some ⟨"kb/./index.csv"⟩ := by
  decide

/-- The rest of an absolute path with at most one more component than a base is the name of this
component. -/
theorem relativeTo?_of_components (name : Option String) (absolute : path.isAbsolute = true)
    (baseAbsolute : base.isAbsolute = true)
    (same : base.components ++ (name.map Component.name).toList = path.components) :
    path.relativeTo? base = some ⟨name.getD ""⟩ := by
  have starts : path.startsWith base = true := List.isPrefixOf_iff_prefix.2 ⟨_, same⟩
  obtain ⟨baseComponents, -⟩ := components_of_isAbsolute baseAbsolute
  obtain ⟨components, -⟩ := components_of_isAbsolute absolute
  rw [components, baseComponents, List.cons_append] at same
  rw [relativeTo?_eq baseComponents starts, writePieces_withinSteps]
  rw [filterMap_dropSteps, ← (List.cons.inj same).2, List.drop_left]

end

end WorkflowBundle.Path
