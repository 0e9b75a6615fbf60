/-
This file says where a reference leads that is joined to the path of a directory, and that it stays
below the directory when it does not escape.
-/

import WorkflowBundle.Proofs.FileTree.Location
import WorkflowBundle.Proofs.Path.Join

namespace WorkflowBundle.FileTree

open WorkflowBundle.Path (IsFileName componentOf? ofNames split)

/-- There is a link below a location when one is at a name of the location or of a directory in it. -/
def HasLinkBelow (tree : FileTree) (location : List String) : Prop :=
  ∃ base name target, location <+: base ∧ LinkAt tree base name target

section

variable {tree : FileTree} {location names : List String}

/-- The steps of a reference that is joined to a path come behind those of the path, less the empty one
behind a last slash. -/
theorem exists_steps_of_join {base : Path} {reference : String} (written : base.text ≠ "")
    (relative : (Path.mk reference).isAbsolute = false) :
    ∃ steps, stepsOf (base.join reference) = steps ++ split reference.toList ∧
      (stepsOf base = steps ∨ stepsOf base = steps ++ [[]]) := by
  obtain ⟨before, nonempty, joined, pieces⟩ := Path.pieces_join written relative
  rw [stepsOf, stepsOf, Path.isAbsolute_join_eq written relative, joined]
  split
  · refine ⟨before.tail, List.tail_append_of_ne_nil nonempty, pieces.imp ?_ ?_⟩
    · intro same
      rw [same]
    · intro same
      rw [same, List.tail_append_of_ne_nil nonempty]
  · exact ⟨before, rfl, pieces⟩

/-- A way goes on over steps without a link. -/
theorem followLinks_append {links : Nat} {first second : List (List Char)} {behind : List String}
    (led : followLinks tree links location first = .ok names)
    (further : follow tree names second = .location behind) :
    followLinks tree links location (first ++ second) = .ok behind := by
  induction led using followLinks_induction with
  | ends links location steps led ended =>
      apply followLinks_eq_ok_iff.2 (.inl _)
      rw [follow_append, ended]
      exact further
  | link fewer location steps led base target rest interrupted written later inductionHypothesis =>
      refine followLinks_eq_ok_iff.2 (.inr ⟨fewer, base, target, rest ++ second, rfl, ?_, written, ?_⟩)
      · rw [follow_append, interrupted]
      · rwa [← List.append_assoc]

/-- Where a reference leads that is joined to a path, it leads from the location of the path. -/
theorem exists_location_of_join {base : Path} {reference : String} (written : base.text ≠ "")
    (relative : (Path.mk reference).isAbsolute = false)
    (located : tree.locate (base.join reference) = .ok names) :
    ∃ location left, left ≤ linkLimit ∧ tree.locate base = .ok location ∧
      followLinks tree left location (split reference.toList) = .ok names := by
  obtain ⟨steps, joined, own⟩ := exists_steps_of_join written relative
  have start : startOf tree.workingDirectory (base.join reference) =
      startOf tree.workingDirectory base := by
    rw [startOf, startOf, Path.isAbsolute_join_eq written relative]
  rw [locate] at located
  split at located
  · cases located
  · rw [joined, start] at located
    obtain ⟨middle, left, few, first, second⟩ := exists_middle_of_followLinks located
    refine ⟨middle, left, few, ?_, second⟩
    rw [locate, if_neg (by simpa using written)]
    rcases own with same | slash
    · rw [same]
      exact first
    · -- The empty piece behind a last slash needs a directory, as the reference does.
      have directory := holdsDirectory_of_followLinks (Text.pieces_ne_nil _ _) second
      rw [slash]
      apply followLinks_append first
      rw [follow, if_pos directory]
      rfl

/-- A reference that leads from a grounded location leads there from its path as well. -/
theorem locate_join_of_followLinks (grounded : Grounded tree location) {reference : String}
    (relative : (Path.mk reference).isAbsolute = false) {left : Nat} (few : left ≤ linkLimit)
    (led : followLinks tree left location (split reference.toList) = .ok names) :
    tree.locate ((ofNames location).join reference) = .ok names := by
  rw [locate_join_ofNames grounded relative]
  exact followLinks_mono few led

/-- Steps over names that meet no link lead through all of them. -/
theorem eq_append_of_follow {steps : List (List Char)} {found : List String}
    (components : steps.filterMap componentOf? = names.map .name)
    (led : follow tree location steps = .location found) : found = location ++ names := by
  induction steps generalizing location names with
  | nil =>
      obtain rfl : names = [] := by simpa using components.symm
      rw [List.append_nil]
      exact (Stop.location.inj led).symm
  | cons piece rest inductionHypothesis =>
      rw [follow] at led
      split at led
      · cases component : componentOf? piece with
        | none =>
            rw [List.filterMap_cons_none component] at components
            rw [component] at led
            exact inductionHypothesis components led
        | some step =>
            rw [List.filterMap_cons_some component] at components
            obtain ⟨name, more, rfl, rfl, behind⟩ := List.map_eq_cons_iff.1 components.symm
            rw [component] at led
            dsimp only at led
            split at led
            · cases led
            · cases led
            · rw [List.append_cons]
              exact inductionHypothesis behind.symm led
      · cases led

/-- A link that interrupts a way without parent steps is below its start. -/
theorem hasLinkBelow_of_follow {steps rest : List (List Char)} {base : List String} {target : Path}
    (descends : ∀ step ∈ steps, componentOf? step ≠ some .parent)
    (led : follow tree location steps = .link base target rest) : HasLinkBelow tree location := by
  obtain ⟨within, name, link⟩ :=
    (follow_inside (List.prefix_refl location) descends).2 base target rest led
  exact ⟨base, name, target, within, link⟩

end

/-- A reference that does not escape goes on below every base with a text: the joined path starts with
the components of the base, and only names of files follow. Where no link is below the directory of
the base, the path leads through these names from there. -/
theorem accepted_reference_stays_below {reference : String} {base : Path}
    (accepted : Escape.ofReference? reference = none) (written : base.text ≠ "") :
    (base.join reference).startsWith base = true ∧
    ∃ names : List String, (∀ name ∈ names, IsFileName name) ∧
      (split reference.toList).filterMap componentOf? = names.map .name ∧
      (base.join reference).components = base.components ++ names.map .name ∧
      ∀ (tree : FileTree) (location : List String),
        tree.locate (base.join reference) = .ok location →
        ∃ directory, tree.locate base = .ok directory ∧
          (¬ HasLinkBelow tree directory → location = directory ++ names) := by
  obtain ⟨relative, descends⟩ := Path.relative_of_ofReference? accepted
  obtain ⟨names, named, steps⟩ := Path.exists_names_of_ofReference? accepted
  have components := Path.components_join_of_written written relative
  rw [steps] at components
  refine ⟨?_, names, named, steps, components, fun tree location located => ?_⟩
  · rw [Path.startsWith, components, List.isPrefixOf_iff_prefix]
    exact List.prefix_append _ _
  · obtain ⟨directory, left, -, start, led⟩ := exists_location_of_join written relative located
    refine ⟨directory, start, fun unlinked => ?_⟩
    -- From the directory of the base only the steps of the reference are left.
    rcases followLinks_eq_ok_iff.1 led with ended | ⟨_, _, _, _, -, interrupted, -⟩
    · exact eq_append_of_follow steps ended
    · exact absurd (hasLinkBelow_of_follow descends interrupted) unlinked

/-- In this tree a link beside the directory leads to it. -/
def sharedTree : FileTree where
  entries :=
    [(["p"], .directory), (["p", "w"], .directory), (["p", "w", "a"], .directory),
      (["p", "w", "a", "b.md"], .file ⟨"Go.".toUTF8.data⟩), (["q"], .link ⟨"p/w"⟩)]
  workingDirectory := []

theorem not_hasLinkBelow_sharedTree : ¬ HasLinkBelow sharedTree ["p", "w"] := by
  rintro ⟨base, name, target, ⟨behind, rfl⟩, -, present⟩
  have listed : (["p", "w"] ++ behind ++ [name], Entry.link target) ∈ sharedTree.entries := by
    rw [FileTree.entry?, if_neg (by simp)] at present
    obtain ⟨before, after, shape, -⟩ := List.lookup_eq_some_iff.1 present
    rw [shape]
    exact List.mem_append_right _ List.mem_cons_self
  simp [sharedTree] at listed

/-- A reference with a dot and repeated slashes leads below a base with a step to the parent and a link. -/
theorem reference_stays_below_shared_base :
    Escape.ofReference? "./a//b.md" = none ∧
      (Path.mk "/p/../q/./a//b.md").startsWith ⟨"/p/../q/"⟩ = true ∧
      sharedTree.locate ⟨"/p/../q/"⟩ = .ok ["p", "w"] ∧
      sharedTree.locate ⟨"/p/../q/./a//b.md"⟩ = .ok (["p", "w"] ++ ["a", "b.md"]) := by
  have accepted : Escape.ofReference? "./a//b.md" = none := by decide
  obtain ⟨starts, names, -, steps, -, below⟩ :=
    @accepted_reference_stays_below "./a//b.md" ⟨"/p/../q/"⟩ accepted (by decide)
  have components : (split "./a//b.md".toList).filterMap componentOf? =
      ["a", "b.md"].map .name := by
    decide
  obtain rfl : names = ["a", "b.md"] :=
    List.map_injective_iff.2 (fun _ _ => Path.Component.name.inj) (steps.symm.trans components)
  have located : sharedTree.locate ⟨"/p/../q/./a//b.md"⟩ = .ok ["p", "w", "a", "b.md"] := by
    decide +kernel
  have start : sharedTree.locate ⟨"/p/../q/"⟩ = .ok ["p", "w"] := by decide +kernel
  obtain ⟨directory, found, inside⟩ := below sharedTree _ located
  obtain rfl := Except.ok.inj (start.symm.trans found)
  exact ⟨accepted, starts, start, (inside not_hasLinkBelow_sharedTree) ▸ located⟩

end WorkflowBundle.FileTree
