/-
This file says which indexes a compiled chain lists: those that the settings of its steps name.
-/

import WorkflowBundle.Proofs.Firsts
import WorkflowBundle.Proofs.Path.Relative
import WorkflowBundle.Proofs.Project.KnowledgeIndex
import WorkflowBundle.Step.Chain

namespace WorkflowBundle.Step

open FileTree (Grounded)
open Firsts (ListsFirsts)

/-- The reference of a step is the text of its setting with the variables inserted. It counts when no
placeholder is left. -/
structure IsReference (bindings : Variable.Table) (step : Step) (reference : String) : Prop where
  inserted : ∃ written, step.knowledgeIndex = some written ∧
    reference = Variable.substitute bindings written
  complete : Variable.hasPlaceholder reference = false

/-- An absolute reference is read below the root as it is written or, if it does not start with that,
below the canonical root. -/
def IsReadBelow (tree : FileTree) (root : Path) (reference : String) (base : Path) : Prop :=
  base = root ∨ tree.canonical root = .ok base ∧ (Path.mk reference).startsWith root = false

/-- A reference leaves nothing when it is blank, or when it is absolute and names the root of the
project or a blank name in it. -/
inductive LeavesNothing (tree : FileTree) (root : Path) (reference : String) : Prop where
  | blank (written : Text.isBlankText reference = true)
  | root {base : Path} {name : String} (absolute : (Path.mk reference).isAbsolute = true)
      (below : IsReadBelow tree root reference base) (blank : Text.isBlankText name = true)
      (same : (base.join name).sameAs ⟨reference⟩ = true)

/-- A reference names a canonical path inside the project when one of its spellings leads there from the
root. -/
structure Names (tree : FileTree) (root : Path) (reference : String) (path : Path) : Prop where
  leads : ∃ spelling : Path, spelling.sameAs (root.join reference) = true ∧
    tree.canonical spelling = .ok path
  canonical : tree.canonical path = .ok path
  inside : Project.LiesInside tree root path

/-- A reference that leaves nothing adds the index that the project has without a given one, and every
other reference adds only what it names. A relative reference that is not blank adds what it names in the
project, if it has no double dot. -/
structure Adds (tree : FileTree) (root : Path) (reference : String) (added : Option Path) : Prop where
  own : LeavesNothing tree root reference → added = Project.indexPath? tree root none
  named : ¬ LeavesNothing tree root reference → ∀ path ∈ added, Names tree root reference path
  relative : (Path.mk reference).isAbsolute = false → Text.isBlankText reference = false →
    ∀ path, added = some path ↔ Text.contains ".." reference = false ∧
      tree.canonical (root.join reference) = .ok path ∧ Project.LiesInside tree root path

/-- The step at a place of a chain adds an index. -/
def AddsAt (tree : FileTree) (root : Path) (bindings : Variable.Table) (steps : List Step)
    (place : Nat) (path : Path) : Prop :=
  ∃ step, steps[place]? = some step ∧ step.indexPath? tree root bindings = some path

section

variable {tree : FileTree} {root path : Path} {bindings : Variable.Table} {step : Step}
  {written reference rest : String}

/-- A blank text is empty or the name of a file, and so it is relative. -/
theorem isFileName_of_isBlankText (blank : Text.isBlankText reference = true) :
    (reference = "" ∨ Path.IsFileName reference) ∧ (Path.mk reference).isAbsolute = false := by
  have blanks : ∀ character ∈ reference.toList, Text.isBlank character = true :=
    List.all_eq_true.1 blank
  have noSlash : '/' ∉ reference.toList := fun slash => absurd (blanks '/' slash) (by decide)
  have noDot : '.' ∉ reference.toList := fun dot => absurd (blanks '.' dot) (by decide)
  constructor
  · by_cases empty : reference = ""
    · exact .inl empty
    · refine .inr ⟨by simpa using empty, noSlash, ?_, ?_⟩
      · intro same
        exact noDot (same ▸ List.mem_cons_self)
      · intro same
        exact noDot (same ▸ List.mem_cons_self)
  · rw [Path.isAbsolute, beq_eq_false_iff_ne]
    intro slash
    exact noSlash (List.mem_of_mem_head? slash)

/-- A blank name that is joined to an absolute path is the rest below this path. -/
theorem relativeTo?_of_blank {base : Path} {name : String}
    (absolute : (Path.mk reference).isAbsolute = true) (blank : Text.isBlankText name = true)
    (same : (base.join name).sameAs ⟨reference⟩ = true) :
    (Path.mk reference).relativeTo? base = some ⟨name⟩ := by
  have components : (base.join name).components = (Path.mk reference).components := eq_of_beq same
  obtain ⟨emptyOrName, relative⟩ := isFileName_of_isBlankText blank
  have joined : (base.join name).isAbsolute = true := by
    apply Path.isAbsolute_of_components
    rw [components, (Path.components_of_isAbsolute absolute).1]
  have baseAbsolute : base.isAbsolute = true := by
    rw [← Path.isAbsolute_join_eq _ relative, joined]
    intro empty
    rw [Path.join, relative, empty] at joined
    have contrary : (Path.mk name).isAbsolute = true := by simpa using joined
    exact absurd contrary (Bool.eq_false_iff.1 relative)
  rw [Path.components_join baseAbsolute relative] at components
  rcases emptyOrName with rfl | named
  · exact Path.relativeTo?_of_components none absolute baseAbsolute components
  · rw [named.split.1, List.filterMap_cons_some (Path.componentOf?_of_isFileName named)] at components
    exact Path.relativeTo?_of_components (some name) absolute baseAbsolute components

/-- What is located for a setting is the inserted reference, or what an absolute one leaves below a
root it is read below. -/
theorem of_indexReference?_eq_some
    (found : indexReference? tree root bindings written = some rest) :
    rest = Variable.substitute bindings written ∨
      (Path.mk (Variable.substitute bindings written)).isAbsolute = true ∧
        ∃ base, IsReadBelow tree root (Variable.substitute bindings written) base ∧
          (Path.mk (Variable.substitute bindings written)).relativeTo? base = some ⟨rest⟩ := by
  rw [indexReference?] at found
  split at found
  · cases found
  · split at found
    · exact .inl (Option.some.inj found).symm
    · rename_i absolute
      have absolute : (Path.mk (Variable.substitute bindings written)).isAbsolute = true := by
        simpa using absolute
      split at found
      · rename_i relative below
        obtain rfl := Option.some.inj found
        refine .inr ⟨absolute, ?_⟩
        rcases Option.or_eq_some_iff.1 below with first | ⟨apart, second⟩
        · exact ⟨root, .inl rfl, first⟩
        · rw [FileTree.canonicalOrSelf] at second
          split at second
          · rename_i directory located
            exact ⟨directory, .inr ⟨located, Path.startsWith_eq_false_of_relativeTo? apart⟩, second⟩
          · cases apart.symm.trans second
      · exact .inl (Option.some.inj found).symm

/-- Where a name leads from the root, it leads from every root that a reference is read below. -/
theorem canonical_join_of_isReadBelow (working : Grounded tree tree.workingDirectory) {base : Path}
    (below : IsReadBelow tree root reference base)
    (relative : (Path.mk rest).isAbsolute = false)
    (located : tree.canonical (root.join rest) = .ok path) :
    tree.canonical (base.join rest) = .ok path := by
  rcases below with rfl | ⟨canonical, -⟩
  · exact located
  · obtain ⟨names, rfl, -, led⟩ := FileTree.exists_names_of_canonical working located
    obtain ⟨location, rfl, grounded, start⟩ := FileTree.exists_names_of_canonical working canonical
    have nonempty : root.text ≠ "" := by
      intro empty
      rw [FileTree.locate, empty] at start
      cases start
    obtain ⟨again, left, few, same, behind⟩ :=
      FileTree.exists_location_of_join nonempty relative led
    obtain rfl := Except.ok.inj (start.symm.trans same)
    exact FileTree.canonical_of_locate
      (FileTree.locate_join_of_followLinks grounded relative few behind)

/-- A reference that leaves nothing adds the index that the project has without a given one. -/
theorem indexPath?_of_leavesNothing (isReference : IsReference bindings step reference)
    (nothing : LeavesNothing tree root reference) :
    step.indexPath? tree root bindings = Project.indexPath? tree root none := by
  obtain ⟨⟨written, setting, rfl⟩, complete⟩ := isReference
  obtain ⟨rest, found, blank⟩ : ∃ rest, indexReference? tree root bindings written = some rest ∧
      Text.isBlankText rest = true := by
    simp only [indexReference?, complete, Bool.false_eq_true, if_false]
    cases nothing with
    | blank blank =>
        refine ⟨_, ?_, blank⟩
        simp only [(isFileName_of_isBlankText blank).2, Bool.not_false, if_true]
    | @root base name absolute below blank same =>
        refine ⟨name, ?_, blank⟩
        have relative := relativeTo?_of_blank absolute blank same
        simp only [absolute, Bool.not_true, Bool.false_eq_true, if_false]
        rcases below with rfl | ⟨canonical, apart⟩
        · simp only [relative, Option.some_or]
        · have none : (Path.mk (Variable.substitute bindings written)).relativeTo? root = none := by
            rw [Path.relativeTo?, apart, if_neg Bool.false_ne_true]
          simp only [none, Option.none_or, FileTree.canonicalOrSelf, canonical, relative]
  rw [indexPath?, setting, ← Project.indexPath?_of_blank blank]
  simp only [Option.bind_eq_bind, Option.bind_some, found]

/-- A reference that leaves something adds only what it names. -/
theorem names_of_indexPath? (working : Grounded tree tree.workingDirectory)
    (isReference : IsReference bindings step reference)
    (something : ¬ LeavesNothing tree root reference)
    (added : step.indexPath? tree root bindings = some path) : Names tree root reference path := by
  obtain ⟨⟨written, setting, rfl⟩, -⟩ := isReference
  obtain ⟨rest, found, located⟩ : ∃ rest, indexReference? tree root bindings written = some rest ∧
      Project.indexPath? tree root (some rest) = some path := by
    rw [indexPath?, setting] at added
    exact Option.bind_eq_some_iff.1 added
  have origin := of_indexReference?_eq_some found
  have nonblank : Text.isBlankText rest = false := by
    rw [Bool.eq_false_iff]
    intro blank
    apply something
    rcases origin with rfl | ⟨absolute, base, below, left⟩
    · exact .blank blank
    · refine .root absolute below blank (beq_iff_eq.2 ?_)
      exact Path.components_join_of_relativeTo? absolute left (isFileName_of_isBlankText blank).2
  rw [Project.indexPath?_of_written nonblank] at located
  obtain ⟨relative, -, leads, -⟩ := Project.explicitIndex?_eq_some_iff.1 located
  obtain ⟨names, rfl, grounded, inside⟩ := Project.exists_names_of_explicitIndex? working located
  refine ⟨?_, FileTree.canonical_ofNames grounded, inside⟩
  rcases origin with rfl | ⟨absolute, base, below, left⟩
  · exact ⟨_, beq_self_eq_true _, leads⟩
  · have whole : root.join (Variable.substitute bindings written) =
        ⟨Variable.substitute bindings written⟩ := by
      rw [Path.join, if_pos absolute]
    refine ⟨base.join rest, ?_, canonical_join_of_isReadBelow working below relative leads⟩
    rw [whole]
    exact beq_iff_eq.2 (Path.components_join_of_relativeTo? absolute left relative)

/-- A relative reference that is not blank adds the place where it leads from the root, if it has no
double dot and this place lies inside the project. -/
theorem indexPath?_eq_some_iff_of_relative (isReference : IsReference bindings step reference)
    (relative : (Path.mk reference).isAbsolute = false)
    (nonblank : Text.isBlankText reference = false) :
    step.indexPath? tree root bindings = some path ↔
      Text.contains ".." reference = false ∧ tree.canonical (root.join reference) = .ok path ∧
        Project.LiesInside tree root path := by
  obtain ⟨⟨written, setting, rfl⟩, complete⟩ := isReference
  have located : step.indexPath? tree root bindings =
      Project.explicitIndex? tree root (Variable.substitute bindings written) := by
    rw [indexPath?, setting, ← Project.indexPath?_of_written nonblank]
    simp only [Option.bind_eq_bind, Option.bind_some, indexReference?, complete, relative,
      Bool.false_eq_true, Bool.not_false, if_true, if_false]
  rw [located, Project.explicitIndex?_eq_some_iff, and_iff_right relative]
  apply and_congr_right
  intro _
  apply and_congr_right
  intro leads
  exact (Project.liesInside_iff_of_join relative leads).symm

theorem adds_indexPath? (working : Grounded tree tree.workingDirectory)
    (isReference : IsReference bindings step reference) :
    Adds tree root reference (step.indexPath? tree root bindings) where
  own := indexPath?_of_leavesNothing isReference
  named something _ added := names_of_indexPath? working isReference something added
  relative relative nonblank _ := indexPath?_eq_some_iff_of_relative isReference relative nonblank

/-- A step that adds an index has a reference. -/
theorem exists_reference_of_indexPath? (added : step.indexPath? tree root bindings = some path) :
    ∃ reference, IsReference bindings step reference := by
  rw [indexPath?] at added
  obtain ⟨written, setting, found⟩ := Option.bind_eq_some_iff.1 added
  obtain ⟨rest, found, -⟩ := Option.bind_eq_some_iff.1 found
  refine ⟨_, ⟨written, setting, rfl⟩, ?_⟩
  rw [indexReference?] at found
  split at found
  · nomatch found
  · rename_i complete
    simpa using complete

/-- The indexes of a chain are the first ones that its steps add. -/
theorem listsFirsts_indexes (tree : FileTree) (root : Path) (bindings : Variable.Table)
    (steps : List Step) :
    ListsFirsts (AddsAt tree root bindings steps) Path.components
      (distinctPaths (steps.filterMap (indexPath? tree root bindings))) := by
  have lists : ListsFirsts (Firsts.offersOf (steps.map (indexPath? tree root bindings)))
      Path.components
      (Firsts.keepNew Path.components (steps.map (indexPath? tree root bindings)).reduceOption) :=
    Firsts.listsFirsts_keepNew _
  rw [List.reduceOption, List.filterMap_map] at lists
  refine lists.congr fun place path => ?_
  rw [Firsts.offersOf, List.getElem?_map, Option.map_eq_some_iff]
  rfl

end

/-- A chain that builds compiles, and lists the first index of each path that its steps add. A step adds
what its reference adds, and nothing without a reference. Only the index that the project has without a
given one can be listed beside another path of the same file. -/
theorem chain_lists_named_indexes {tree : FileTree} (working : Grounded tree tree.workingDirectory)
    {root first : Path} {steps : List Step} (chained : chain tree first = .ok steps)
    (bindings : Variable.Table) (knowledge : Option String) :
    ∃ text indexes, compileChain tree root bindings knowledge first = .ok (text, indexes) ∧
      ListsFirsts (AddsAt tree root bindings steps) Path.components indexes ∧
      (∀ step ∈ steps,
        (∀ path ∈ step.indexPath? tree root bindings, ∃ reference,
          IsReference bindings step reference) ∧
        ∀ reference, IsReference bindings step reference →
          Adds tree root reference (step.indexPath? tree root bindings)) ∧
      indexes.Pairwise fun earlier later => tree.canonical earlier = tree.canonical later →
        Project.indexPath? tree root none = some earlier ∨
          Project.indexPath? tree root none = some later := by
  have lists := listsFirsts_indexes tree root bindings steps
  refine ⟨_, _, by rw [compileChain, chained]; rfl, lists, fun step _ => ⟨fun path added => ?_,
    fun reference isReference => adds_indexPath? working isReference⟩, ?_⟩
  · exact exists_reference_of_indexPath? added
  -- Of two indexes that were both named, each is its own canonical path.
  refine lists.pairwise.imp_of_mem fun {earlier later} firstIn secondIn apart same => ?_
  have own (path : Path) (member : path ∈ distinctPaths (steps.filterMap
      (indexPath? tree root bindings))) :
      Project.indexPath? tree root none = some path ∨ tree.canonical path = .ok path := by
    obtain ⟨place, ⟨step, -, added⟩, -⟩ := lists.exists_isFirst member
    obtain ⟨reference, isReference⟩ := exists_reference_of_indexPath? added
    by_cases nothing : LeavesNothing tree root reference
    · exact .inl ((indexPath?_of_leavesNothing isReference nothing).symm.trans added)
    · exact .inr (names_of_indexPath? working isReference nothing added).canonical
  rcases own earlier firstIn with default | firstCanonical
  · exact .inl default
  · rcases own later secondIn with default | secondCanonical
    · exact .inr default
    · have equal := Except.ok.inj (firstCanonical.symm.trans (same.trans secondCanonical))
      exact absurd (congrArg Path.components equal) apart

/-- In this tree the first step names the root of the project and the second one an index, to which the
index of the project is a link. -/
def namedTree : FileTree where
  entries :=
    [(["p"], .directory),
      (["p", "s.md"],
        .file ⟨"---\nknowledgeIndex: '\x7bproject-root\x7d'\nnextStepFile: t.md\n---\n".toUTF8.data⟩),
      (["p", "t.md"], .file ⟨"---\nknowledgeIndex: kb/index.csv\n---\n".toUTF8.data⟩),
      (["p", "kb"], .directory), (["p", "kb", "index.csv"], .file ⟨"".toUTF8.data⟩),
      (["p", "_knowledge"], .directory),
      (["p", "_knowledge", "index.csv"], .link ⟨"../kb/index.csv"⟩)]
  workingDirectory := []

def namedBindings : Variable.Table :=
  (∅ : Variable.Table).insert "project-root" (.text "/p")

/-- The chain of this tree builds, its first step has the root as its reference, and the link is listed
beside its target. -/
theorem compiled_namedTree :
    ∃ steps step text, chain namedTree ⟨"/p/s.md"⟩ = .ok steps ∧ step ∈ steps ∧
      IsReference namedBindings step "/p" ∧
      step.indexPath? namedTree ⟨"/p"⟩ namedBindings = some ⟨"/p/_knowledge/index.csv"⟩ ∧
      compileChain namedTree ⟨"/p"⟩ namedBindings none ⟨"/p/s.md"⟩ =
        .ok (text, [⟨"/p/_knowledge/index.csv"⟩, ⟨"/p/kb/index.csv"⟩]) := by
  have linked : (chain namedTree ⟨"/p/s.md"⟩).toOption.map (·.map fun step =>
      (step.knowledgeIndex, step.indexPath? namedTree ⟨"/p"⟩ namedBindings)) =
      some [(some "\x7bproject-root\x7d", some ⟨"/p/_knowledge/index.csv"⟩),
        (some "kb/index.csv", some ⟨"/p/kb/index.csv"⟩)] := by
    decide +kernel
  have listed : (compileChain namedTree ⟨"/p"⟩ namedBindings none ⟨"/p/s.md"⟩).toOption.map Prod.snd =
      some [⟨"/p/_knowledge/index.csv"⟩, ⟨"/p/kb/index.csv"⟩] := by
    decide +kernel
  have inserted : Variable.substitute namedBindings "\x7bproject-root\x7d" = "/p" := by
    decide +kernel
  obtain ⟨steps, chained, settings⟩ := Outcome.exists_of_map_toOption linked
  obtain ⟨⟨text, indexes⟩, compiled, rfl⟩ := Outcome.exists_of_map_toOption listed
  obtain ⟨step, others, rfl, setting, -⟩ := List.map_eq_cons_iff.1 settings
  obtain ⟨written, added⟩ := Prod.mk.inj setting
  exact ⟨_, step, text, chained, List.mem_cons_self,
    ⟨⟨_, written, inserted.symm⟩, by decide +kernel⟩, added, compiled⟩

/-- The link is listed beside its target since it is the index of the project itself, which the
reference to the root adds. -/
theorem own_index_is_listed_beside_target :
    ∃ steps, chain namedTree ⟨"/p/s.md"⟩ = .ok steps ∧
      (∃ step ∈ steps, IsReference namedBindings step "/p" ∧
        step.indexPath? namedTree ⟨"/p"⟩ namedBindings =
          Project.indexPath? namedTree ⟨"/p"⟩ none) ∧
      ListsFirsts (AddsAt namedTree ⟨"/p"⟩ namedBindings steps) Path.components
        [⟨"/p/_knowledge/index.csv"⟩, ⟨"/p/kb/index.csv"⟩] := by
  obtain ⟨steps, step, text, chained, member, isReference, added, compiled⟩ := compiled_namedTree
  have working : Grounded namedTree namedTree.workingDirectory := .root
  obtain ⟨_, indexes, again, lists, each, -⟩ :=
    @chain_lists_named_indexes namedTree working ⟨"/p"⟩ _ steps chained namedBindings none
  obtain ⟨rfl, rfl⟩ := Prod.mk.inj (Except.ok.inj (compiled.symm.trans again))
  have nothing : LeavesNothing namedTree ⟨"/p"⟩ "/p" :=
    @LeavesNothing.root _ _ _ ⟨"/p"⟩ "" (by decide) (.inl rfl) (by decide) (by decide)
  have own := ((each step member).2 "/p" isReference).own nothing
  exact ⟨steps, chained, ⟨step, member, isReference, own⟩, lists⟩

/-- Two listed indexes can be the same file, and a reference that is not blank and names no file can
add the index of the project. -/
theorem unnamed_index_is_listed :
    (¬ ∀ (tree : FileTree) (root first : Path) (bindings : Variable.Table)
      (knowledge : Option String) (text : String) (indexes : List Path),
      Grounded tree tree.workingDirectory → root.text ≠ "" →
      compileChain tree root bindings knowledge first = .ok (text, indexes) →
      indexes.Pairwise fun earlier later => tree.canonical earlier ≠ tree.canonical later) ∧
    ¬ ∀ (tree : FileTree) (root first : Path) (bindings : Variable.Table) (steps : List Step),
      Grounded tree tree.workingDirectory → root.text ≠ "" → chain tree first = .ok steps →
      ∀ step ∈ steps, ∀ reference, IsReference bindings step reference →
        Text.isBlankText reference = false → tree.isFile (root.join reference) = false →
        step.indexPath? tree root bindings = none := by
  obtain ⟨steps, step, text, chained, member, isReference, added, compiled⟩ := compiled_namedTree
  have nonempty : (Path.mk "/p").text ≠ "" := by decide
  constructor
  · intro different
    have apart := different _ _ _ _ _ _ _ .root nonempty compiled
    obtain ⟨first, -⟩ := List.pairwise_cons.1 apart
    exact first ⟨"/p/kb/index.csv"⟩ List.mem_cons_self (by decide +kernel)
  · intro refused
    have nothing := refused namedTree ⟨"/p"⟩ _ namedBindings steps .root nonempty chained step member
      "/p" isReference (by decide) (by decide +kernel)
    nomatch nothing.symm.trans added

end WorkflowBundle.Step
