/-
This file shows that ways without parent steps stay inside a directory, unless a link in it leads
out.
-/

import WorkflowBundle.Proofs.FileTree.Location

namespace WorkflowBundle.FileTree

open WorkflowBundle.Path (IsFileName componentOf? ofNames split stepsOfNames)

/-- A tree is realizable when its names are file names and its working directory is grounded. -/
structure Realizable (tree : FileTree) : Prop where
  named : ∀ entry ∈ tree.entries, ∀ name ∈ entry.1, IsFileName name
  working : Grounded tree tree.workingDirectory

/-- A link in a directory leads out when its canonical path is not in the directory. -/
def LeadsOut (tree : FileTree) (directory : Path) (link : List String) : Prop :=
  (ofNames link).startsWith directory = true ∧
    (∃ target, tree.entry? link = some (.link target)) ∧
    ∃ resolved, tree.canonical (ofNames link) = .ok resolved ∧
      resolved.startsWith directory = false

/-- A directory is sealed when no link in it leads out. -/
structure Sealed (tree : FileTree) (location : List String) : Prop where
  working : Grounded tree tree.workingDirectory
  grounded : Grounded tree location
  directory : tree.holdsDirectory location = true
  closed : ∀ link, ¬ LeadsOut tree (ofNames location) link

/-- A path is settled in a directory when it is the path of a grounded location there. -/
def SettledIn (tree : FileTree) (directory : List String) (path : Path) : Prop :=
  ∃ names, path = ofNames names ∧ Grounded tree names ∧ directory <+: names

section

variable {tree : FileTree} {directory location base names : List String}

/-- A link at a name of a grounded location leads where its target does. -/
theorem locate_link {name : String} {target : Path} {links : Nat}
    (grounded : Grounded tree base) (named : IsFileName name)
    (link : LinkAt tree base name target) (written : target.text ≠ "") (few : links < linkLimit)
    (led : followLinks tree links (startOf base target) (stepsOf target) = .ok names) :
    tree.locate (ofNames (base ++ [name])) = .ok names := by
  have allNamed : ∀ other ∈ base ++ [name], IsFileName other :=
    List.forall_mem_append.2 ⟨grounded.named, by simpa using named⟩
  have steps : stepsOf (ofNames (base ++ [name])) = stepsOfNames base ++ [name.toList] := by
    rw [stepsOf_ofNames (by simp) allNamed]
    simp [stepsOfNames]
  rw [locate_eq_of_stepsOf grounded ⟨Path.isAbsolute_ofNames _, steps⟩]
  have interrupted : follow tree base [name.toList] = .link base target [] := by
    rw [follow, if_pos link.directory, Path.componentOf?_of_isFileName named]
    simp only [link.present]
  obtain ⟨others, limit⟩ := Nat.exists_eq_add_one_of_ne_zero (Nat.ne_zero_of_lt few)
  have more : followLinks tree others (startOf base target) (stepsOf target ++ []) = .ok names := by
    rw [List.append_nil]
    exact followLinks_mono (by omega) led
  exact followLinks_eq_ok_iff.2
    (.inr ⟨others, base, target, [], limit, interrupted, written, more⟩)

/-- A way without parent steps that starts in a sealed directory ends in it. -/
theorem Sealed.prefix_of_followLinks (sealed : Sealed tree directory) {links : Nat}
    {steps : List (List Char)} (few : links ≤ linkLimit) (start : Grounded tree location)
    (within : directory <+: location) (clean : ∀ step ∈ steps, '/' ∉ step)
    (descends : ∀ step ∈ steps, componentOf? step ≠ some .parent)
    (led : followLinks tree links location steps = .ok names) : directory <+: names := by
  -- A link uses up one of the links, and the way behind its target has fewer left.
  induction links using Nat.strong_induction_on generalizing location steps with
  | _ links inductionHypothesis =>
      rcases followLinks_eq_ok_iff.1 led with ends |
        ⟨fewer, base, target, rest, rfl, interrupted, written, later⟩
      · exact (follow_inside within descends).1 names ends
      · obtain ⟨grounded, suffix, name, named, link⟩ :=
          (follow_grounded start clean).2 base target rest interrupted
        obtain ⟨inside, -⟩ := (follow_inside within descends).2 base target rest interrupted
        obtain ⟨middle, left, fewest, first, second⟩ := exists_middle_of_followLinks later
        have groundedMiddle : Grounded tree middle :=
          grounded_of_followLinks (grounded.startOf target) (clean_stepsOf target) first
        have located := locate_link grounded named link written few first
        have insideMiddle : directory <+: middle := by
          rw [← Path.startsWith_ofNames_iff groundedMiddle.named sealed.grounded.named]
          by_contra outside
          refine sealed.closed (base ++ [name])
            ⟨?_, ⟨target, link.present⟩, ofNames middle, canonical_of_locate located, ?_⟩
          · rw [Path.startsWith_ofNames_iff _ sealed.grounded.named]
            · exact inside.trans (List.prefix_append base [name])
            · exact List.forall_mem_append.2 ⟨grounded.named, by simpa using named⟩
          · simpa using outside
        refine inductionHypothesis left (Nat.lt_succ_of_le fewest)
          (Nat.le_trans fewest (Nat.le_of_succ_le few)) groundedMiddle insideMiddle ?_ ?_ second
        · exact fun step member => clean step (suffix.subset member)
        · exact fun step member => descends step (suffix.subset member)

/-- A path descends from a location when it leads where steps without a parent lead from there. -/
def Descends (tree : FileTree) (location : List String) (path : Path) : Prop :=
  ∃ steps, (∀ step ∈ steps, '/' ∉ step) ∧ (∀ step ∈ steps, componentOf? step ≠ some .parent) ∧
    tree.locate path = followLinks tree linkLimit location steps

/-- A reference that does not escape descends from the location it is joined to. -/
theorem descends_join (grounded : Grounded tree location) {reference : String}
    (accepted : Escape.ofReference? reference = none) :
    Descends tree location ((ofNames location).join reference) := by
  obtain ⟨relative, descends⟩ := Path.relative_of_ofReference? accepted
  exact ⟨split reference.toList, fun _ => Path.clean_of_mem_split, descends,
    locate_join_ofNames grounded relative⟩

/-- A file name in a folder descends from the location of the folder. -/
theorem descends_join_join (grounded : Grounded tree location) {folder name : String}
    (folderNamed : IsFileName folder) (named : IsFileName name) :
    Descends tree location (((ofNames location).join folder).join name) := by
  obtain ⟨absolute, steps⟩ := stepsOf_join_ofNames grounded.named folderNamed.isAbsolute
  have joined := stepsOf_join absolute (Path.getLast?_join _ folderNamed) named.isAbsolute
  rw [steps, folderNamed.split.1, named.split.1, List.append_assoc] at joined
  refine ⟨_, ?_, ?_, locate_eq_of_stepsOf grounded joined⟩
  · exact List.forall_mem_append.2
      ⟨by simpa using folderNamed.2.1, by simpa using named.2.1⟩
  · exact List.forall_mem_append.2
      ⟨by simpa using folderNamed.split.2, by simpa using named.split.2⟩

/-- A path that descends from a location in a sealed directory settles in the directory. -/
theorem Sealed.settledIn (sealed : Sealed tree directory) {path resolved : Path}
    (grounded : Grounded tree location) (within : directory <+: location)
    (descends : Descends tree location path) (located : tree.canonical path = .ok resolved) :
    SettledIn tree directory resolved := by
  obtain ⟨steps, clean, noParent, same⟩ := descends
  obtain ⟨names, rfl, settled, led⟩ := exists_names_of_canonical sealed.working located
  rw [same] at led
  exact ⟨names, rfl, settled, sealed.prefix_of_followLinks (Nat.le_refl _) grounded within clean
    noParent led⟩

/-- The root is sealed, since every location is in it. -/
theorem sealed_root (working : Grounded tree tree.workingDirectory) : Sealed tree [] := by
  refine ⟨working, .root, rfl, ?_⟩
  rintro link ⟨-, -, resolved, located, outside⟩
  obtain ⟨names, rfl, grounded, -⟩ := exists_names_of_canonical working located
  have inside : (ofNames names).startsWith (ofNames []) = true := by
    rw [Path.startsWith_ofNames_iff grounded.named (List.forall_mem_nil _)]
    exact List.nil_prefix
  nomatch outside.symm.trans inside

theorem exists_name_of_mem_filesIn (realizable : Realizable tree) {folder path : Path}
    (member : path ∈ tree.filesIn folder) :
    ∃ name, IsFileName name ∧ path = folder.join name ∧ tree.isFile path = true := by
  obtain ⟨parent, name, child, same, isFile⟩ := exists_child_of_mem_filesIn member
  obtain ⟨entry, present, last⟩ := List.mem_filterMap.1 child
  split at last
  · have inside := List.mem_of_mem_getLast? last
    exact ⟨name, realizable.named entry present name inside, same, isFile⟩
  · nomatch last

end

end WorkflowBundle.FileTree
