/-
This file says where the paths of locations lead, and the references that are joined to them.
-/

import WorkflowBundle.Proofs.FileTree.Way
import WorkflowBundle.Proofs.Outcome

namespace WorkflowBundle.FileTree

open WorkflowBundle.Path (IsFileName ofNames split stepsOfNames)

/-- Behind a leading slash a path is absolute, and its steps are the pieces that follow. -/
theorem stepsOf_of_slash {path : Path} {behind : List Char}
    (starts : path.text.toList = '/' :: behind) :
    path.isAbsolute = true ∧ stepsOf path = split behind := by
  have absolute : path.isAbsolute = true := by
    rw [Path.isAbsolute, starts]
    rfl
  refine ⟨absolute, ?_⟩
  rw [stepsOf, if_pos absolute, Path.pieces, starts]
  exact congrArg List.tail (Path.split_append [] behind)

/-- The steps of an absolute path come before those of a reference that is joined to it. -/
theorem stepsOf_join {base : Path} {reference : String} (absolute : base.isAbsolute = true)
    (noSlash : base.text.toList.getLast? ≠ some '/')
    (relative : (Path.mk reference).isAbsolute = false) :
    (base.join reference).isAbsolute = true ∧
      stepsOf (base.join reference) = stepsOf base ++ split reference.toList := by
  obtain ⟨behind, starts⟩ := List.head?_eq_some_iff.1 (eq_of_beq absolute)
  have joined := Path.toList_join (by rw [starts]; simp) noSlash relative
  rw [starts, List.cons_append] at joined
  rw [(stepsOf_of_slash starts).2, ← Path.split_append]
  exact stepsOf_of_slash joined

section

variable {tree : FileTree} {location names : List String} {path : Path}

theorem stepsOf_ofNames (written : names ≠ []) (named : ∀ name ∈ names, IsFileName name) :
    stepsOf (ofNames names) = stepsOfNames names := by
  rw [stepsOf, if_pos (Path.isAbsolute_ofNames names), Path.pieces_ofNames written named,
    List.tail_cons]

/-- The steps of a reference that is joined to a path of names come behind the names. -/
theorem stepsOf_join_ofNames (named : ∀ name ∈ names, IsFileName name) {reference : String}
    (relative : (Path.mk reference).isAbsolute = false) :
    ((ofNames names).join reference).isAbsolute = true ∧
      stepsOf ((ofNames names).join reference) =
        stepsOfNames names ++ split reference.toList := by
  by_cases root : names = []
  · -- The root is the one path of names that ends with a slash.
    subst root
    have joined : ((ofNames []).join reference).text.toList = '/' :: reference.toList := by
      simp [Path.join, relative, Path.toList_ofNames, stepsOfNames, Path.writePieces]
    exact stepsOf_of_slash joined
  · have joined := stepsOf_join (Path.isAbsolute_ofNames names)
      (Path.getLast?_ofNames root named) relative
    rwa [stepsOf_ofNames root named] at joined

/-- Ways that follow the same steps read the same links. -/
theorem followLinks_congr {first second : List String} {steps others : List (List Char)}
    (same : follow tree first steps = follow tree second others) (links : Nat) :
    followLinks tree links first steps = followLinks tree links second others := by
  rw [followLinks.eq_def, followLinks.eq_def tree links second]
  simp only [same]

theorem locate_of_isAbsolute {path : Path} (absolute : path.isAbsolute = true) :
    tree.locate path = followLinks tree linkLimit [] (stepsOf path) := by
  have written : path.text ≠ "" := by
    intro empty
    rw [Path.isAbsolute, empty] at absolute
    exact absurd absolute (by decide)
  rw [locate, if_neg (by simpa using written), startOf, if_pos absolute]

/-- A path that goes on from a grounded location leads where its further steps lead from there. -/
theorem locate_eq_of_stepsOf (grounded : Grounded tree names) {path : Path}
    {rest : List (List Char)}
    (steps : path.isAbsolute = true ∧ stepsOf path = stepsOfNames names ++ rest) :
    tree.locate path = followLinks tree linkLimit names rest := by
  rw [locate_of_isAbsolute steps.1, steps.2]
  exact followLinks_congr (follow_stepsOfNames grounded rest) linkLimit

theorem locate_ofNames (grounded : Grounded tree names) :
    tree.locate (ofNames names) = .ok names := by
  by_cases root : names = []
  · subst root
    rw [locate_of_isAbsolute (Path.isAbsolute_ofNames [])]
    exact followLinks_eq_ok_iff.2 (.inl rfl)
  · have steps : stepsOf (ofNames names) = stepsOfNames names ++ [] := by
      rw [stepsOf_ofNames root grounded.named, List.append_nil]
    rw [locate_eq_of_stepsOf grounded ⟨Path.isAbsolute_ofNames names, steps⟩]
    exact followLinks_eq_ok_iff.2 (.inl rfl)

/-- A reference that is joined to the path of a grounded location is followed from there. -/
theorem locate_join_ofNames (grounded : Grounded tree names) {reference : String}
    (relative : (Path.mk reference).isAbsolute = false) :
    tree.locate ((ofNames names).join reference) =
      followLinks tree linkLimit names (split reference.toList) :=
  locate_eq_of_stepsOf grounded (stepsOf_join_ofNames grounded.named relative)

/-- In a tree with a grounded working directory every path leads to a grounded location. -/
theorem grounded_of_locate (working : Grounded tree tree.workingDirectory) {path : Path}
    (located : tree.locate path = .ok names) : Grounded tree names := by
  rw [locate] at located
  split at located
  · nomatch located
  · exact grounded_of_followLinks (working.startOf path) (clean_stepsOf path) located

theorem canonical_of_locate (located : tree.locate path = .ok names) :
    tree.canonical path = .ok (ofNames names) := by
  rw [canonical, located]
  rfl

/-- A canonical path is the path of a grounded location, and canonical itself. -/
theorem exists_names_of_canonical (working : Grounded tree tree.workingDirectory)
    {path resolved : Path} (located : tree.canonical path = .ok resolved) :
    ∃ names, resolved = ofNames names ∧ Grounded tree names ∧ tree.locate path = .ok names := by
  obtain ⟨names, led, rfl⟩ := Outcome.map_eq_ok_iff.1 located
  exact ⟨names, rfl, grounded_of_locate working led, led⟩

theorem canonical_ofNames (grounded : Grounded tree names) :
    tree.canonical (ofNames names) = .ok (ofNames names) :=
  canonical_of_locate (locate_ofNames grounded)

theorem exists?_iff : tree.exists? path = true ↔ ∃ location, tree.locate path = .ok location := by
  rw [FileTree.exists?]
  cases tree.locate path with
  | error fault => simp [Except.isOk, Except.toBool]
  | ok location => simp [Except.isOk, Except.toBool]

/-- An absolute path leads to a grounded location in every tree. -/
theorem grounded_of_isAbsolute (absolute : path.isAbsolute = true)
    (located : tree.locate path = .ok location) : Grounded tree location := by
  rw [locate_of_isAbsolute absolute] at located
  exact grounded_of_followLinks .root (clean_stepsOf path) located

/-- A path that is its own canonical form is the path of a grounded location. -/
theorem exists_names_of_canonical_self (canonical : tree.canonical path = .ok path) :
    ∃ names, path = ofNames names ∧ Grounded tree names := by
  obtain ⟨names, led, same⟩ := Outcome.map_eq_ok_iff.1 canonical
  have absolute : path.isAbsolute = true := same ▸ Path.isAbsolute_ofNames names
  exact ⟨names, same.symm, grounded_of_isAbsolute absolute led⟩

/-- The canonical form of an absolute path that exists does so as well. -/
theorem exists?_canonicalOrSelf (absolute : path.isAbsolute = true)
    (located : tree.locate path = .ok location) :
    tree.exists? (tree.canonicalOrSelf path) = true := by
  simp only [canonicalOrSelf, canonical_of_locate located]
  exact exists?_iff.2 ⟨location, locate_ofNames (grounded_of_isAbsolute absolute located)⟩

theorem exists_child_of_mem_filesIn {folder : Path} (member : path ∈ tree.filesIn folder) :
    ∃ parent, ∃ name ∈ tree.children parent, path = folder.join name ∧ tree.isFile path = true := by
  rw [filesIn] at member
  split at member
  · nomatch member
  · rename_i parent _
    split at member
    · obtain ⟨listed, isFile⟩ := List.mem_filter.1 member
      obtain ⟨name, child, rfl⟩ := List.mem_map.1 listed
      exact ⟨parent, name, child, rfl, isFile⟩
    · nomatch member

theorem exists_location_of_isFile (isFile : tree.isFile path = true) :
    ∃ location content, tree.locate path = .ok location ∧
      tree.entry? location = some (.file content) := by
  rw [FileTree.isFile, entryAt?] at isFile
  cases located : tree.locate path with
  | error fault => simp [located, Except.toOption] at isFile
  | ok location =>
      simp only [located, Except.toOption, Option.bind_some] at isFile
      split at isFile
      · rename_i content present
        exact ⟨location, content, rfl, present⟩
      · nomatch isFile

/-- At a grounded location there is a file or a directory. -/
theorem Grounded.isFile_or_isDirectory (grounded : Grounded tree location) :
    tree.isFile (ofNames location) = true ∨ tree.isDirectory (ofNames location) = true := by
  have located := locate_ofNames grounded
  rw [FileTree.isFile, FileTree.isDirectory, entryAt?, located]
  cases grounded with
  | root => exact .inr rfl
  | @child location name entry _ _ _ present solid =>
      simp only [Except.toOption, Option.bind_some, present]
      cases entry with
      | file content => exact .inl rfl
      | directory => exact .inr rfl
      | link target => exact absurd rfl (solid target)

theorem exists_location_of_read {text : String} (read : tree.read path = .ok text) :
    ∃ location content, tree.locate path = .ok location ∧
      tree.entry? location = some (.file content) := by
  rw [FileTree.read] at read
  obtain ⟨location, located, rest⟩ := Outcome.bind_eq_ok_iff.1 read
  split at rest
  · rename_i content present
    exact ⟨location, content, located, present⟩
  · nomatch rest
  · nomatch rest

theorem isFile_of_read {text : String} (read : tree.read path = .ok text) :
    tree.isFile path = true := by
  obtain ⟨location, content, located, present⟩ := exists_location_of_read read
  rw [FileTree.isFile, entryAt?, located]
  simp only [Except.toOption, Option.bind_some, present]

/-- A way that takes a step starts at a directory. -/
theorem holdsDirectory_of_followLinks {links : Nat} {steps : List (List Char)} (takes : steps ≠ [])
    (led : followLinks tree links location steps = .ok names) :
    tree.holdsDirectory location = true := by
  obtain ⟨piece, rest, rfl⟩ := List.exists_cons_of_ne_nil takes
  by_contra missing
  have stuck : follow tree location (piece :: rest) = .fault .notDirectory := by
    rw [follow, if_neg missing]
  rcases followLinks_eq_ok_iff.1 led with ends | ⟨_, _, _, _, -, interrupted, -⟩
  · simp [stuck] at ends
  · simp [stuck] at interrupted

/-- A location from which a reference leads somewhere holds a directory. -/
theorem holdsDirectory_of_locate_join (grounded : Grounded tree location) {reference : String}
    (relative : (Path.mk reference).isAbsolute = false)
    (located : tree.locate ((ofNames location).join reference) = .ok names) :
    tree.holdsDirectory location = true := by
  rw [locate_join_ofNames grounded relative] at located
  exact holdsDirectory_of_followLinks (Text.pieces_ne_nil _ _) located

/-- A name below a location leads to its own place, unless it is a link. -/
theorem eq_concat_or_link_of_locate_join (grounded : Grounded tree location) {name : String}
    (named : IsFileName name) (located : tree.locate ((ofNames location).join name) = .ok names) :
    names = location ++ [name] ∨ ∃ target, LinkAt tree location name target := by
  have directory := holdsDirectory_of_locate_join grounded named.isAbsolute located
  rw [locate_join_ofNames grounded named.isAbsolute, named.split.1] at located
  have way := Path.componentOf?_of_isFileName named
  rcases followLinks_eq_ok_iff.1 located with ended | ⟨_, _, _, _, -, interrupted, -⟩
  · rw [follow, if_pos directory, way] at ended
    dsimp only at ended
    split at ended
    · simp only [reduceCtorEq] at ended
    · simp only [reduceCtorEq] at ended
    · exact .inl (Stop.location.inj ended).symm
  · rw [follow, if_pos directory, way] at interrupted
    dsimp only at interrupted
    split at interrupted
    · simp only [reduceCtorEq] at interrupted
    · rename_i target present
      exact .inr ⟨target, directory, present⟩
    · simp only [follow, reduceCtorEq] at interrupted

/-- An absolute path that names a file has a canonical form, whose parent leaves out the last name of
the file. -/
theorem exists_parent_of_isFile (absolute : path.isAbsolute = true)
    (isFile : tree.isFile path = true) :
    ∃ names, tree.locate path = .ok names ∧ tree.canonical path = .ok (ofNames names) ∧
      (ofNames names).parent? = some (ofNames names.dropLast) := by
  obtain ⟨names, content, located, present⟩ := exists_location_of_isFile isFile
  have written : names ≠ [] := by
    rintro rfl
    simp [FileTree.entry?] at present
  exact ⟨names, located, canonical_of_locate located,
    Path.parent?_ofNames written (grounded_of_isAbsolute absolute located).named⟩

end

end WorkflowBundle.FileTree
