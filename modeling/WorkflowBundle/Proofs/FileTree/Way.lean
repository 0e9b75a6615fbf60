/-
This file follows the ways through a tree: where they go, and how they are put together.
-/

import Mathlib.Tactic.Common
import WorkflowBundle.FileTree.Resolve
import WorkflowBundle.Proofs.Path.Names

namespace WorkflowBundle.FileTree

open WorkflowBundle.Path (IsFileName componentOf? stepsOfNames)

/-- A location is grounded when every name on the way to it is entered through a directory, and is
there but no link. -/
inductive Grounded (tree : FileTree) : List String → Prop where
  | root : Grounded tree []
  | child {location : List String} {name : String} {entry : Entry}
      (parent : Grounded tree location) (directory : tree.holdsDirectory location = true)
      (named : IsFileName name) (present : tree.entry? (location ++ [name]) = some entry)
      (solid : ∀ target, entry ≠ .link target) : Grounded tree (location ++ [name])

/-- A name below a location is a link. -/
structure LinkAt (tree : FileTree) (base : List String) (name : String) (target : Path) :
    Prop where
  directory : tree.holdsDirectory base = true
  present : tree.entry? (base ++ [name]) = some (.link target)

section

variable {tree : FileTree} {location names : List String}

theorem Grounded.named (grounded : Grounded tree location) :
    ∀ name ∈ location, IsFileName name := by
  induction grounded with
  | root => nofun
  | child _ _ named _ _ inductionHypothesis =>
      intro name member
      rcases List.mem_append.1 member with before | last
      · exact inductionHypothesis name before
      · exact List.mem_singleton.1 last ▸ named

theorem Grounded.dropLast (grounded : Grounded tree location) :
    Grounded tree location.dropLast := by
  cases grounded with
  | root => exact .root
  | child parent _ _ _ _ =>
      rw [List.dropLast_concat]
      exact parent

/-- Every location on the way to a grounded one is grounded. -/
theorem Grounded.of_prefix (grounded : Grounded tree names) (inside : location <+: names) :
    Grounded tree location := by
  obtain ⟨more, rfl⟩ := inside
  induction more using List.reverseRecOn with
  | nil => rwa [List.append_nil] at grounded
  | append_singleton more name inductionHypothesis =>
      apply inductionHypothesis
      have parent := grounded.dropLast
      rwa [← List.append_assoc, List.dropLast_concat] at parent

/-- Below a location on the way to a grounded one, the next name on this way is there and no link. -/
theorem Grounded.exists_entry {name : String} {more : List String}
    (grounded : Grounded tree (location ++ name :: more)) :
    ∃ entry, tree.entry? (location ++ [name]) = some entry ∧ ∀ target, entry ≠ .link target := by
  have inside : location ++ [name] <+: location ++ name :: more := by
    rw [List.append_cons location name more]
    exact List.prefix_append _ _
  generalize next : location ++ [name] = child at inside ⊢
  cases grounded.of_prefix inside with
  | root => simp at next
  | child parent directory named present solid => exact ⟨_, present, solid⟩

theorem follow_stepsOfNames (grounded : Grounded tree location) (rest : List (List Char)) :
    follow tree [] (stepsOfNames location ++ rest) = follow tree location rest := by
  induction grounded generalizing rest with
  | root => rfl
  | @child location name entry _ directory named present solid inductionHypothesis =>
      have steps : stepsOfNames (location ++ [name]) ++ rest =
          stepsOfNames location ++ name.toList :: rest := by
        simp [stepsOfNames]
      rw [steps, inductionHypothesis, follow, if_pos directory,
        Path.componentOf?_of_isFileName named]
      cases entry with
      | link target => exact absurd rfl (solid target)
      | file content => simp only [present]
      | directory => simp only [present]

/-- Steps whose components are the names between two grounded locations lead from one to the other,
unless they go on behind a file. -/
theorem follow_of_components {more : List String} {steps : List (List Char)}
    (grounded : Grounded tree (location ++ more))
    (components : steps.filterMap componentOf? = more.map .name) :
    follow tree location steps = .location (location ++ more) ∨
      follow tree location steps = .fault .notDirectory := by
  induction steps generalizing location more with
  | nil =>
      obtain rfl : more = [] := by simpa using components.symm
      rw [List.append_nil]
      exact .inl rfl
  | cons piece rest inductionHypothesis =>
      rw [follow]
      split
      · cases component : componentOf? piece with
        | none =>
            rw [List.filterMap_cons_none component] at components
            exact inductionHypothesis grounded components
        | some step =>
            rw [List.filterMap_cons_some component] at components
            cases more with
            | nil => cases components
            | cons name more =>
                obtain ⟨rfl, behind⟩ := List.cons.inj components
                obtain ⟨entry, present, solid⟩ := grounded.exists_entry
                rw [List.append_cons] at grounded ⊢
                have later := inductionHypothesis grounded behind
                cases entry with
                | link target => exact absurd rfl (solid target)
                | file content => simpa only [present] using later
                | directory => simpa only [present] using later
      · exact .inr rfl

/-- What holds of the start of a way and is kept by its steps holds where the way ends, and where a
link interrupts it. -/
theorem follow_keeps (holds : List String → Prop) {steps : List (List Char)}
    (start : holds location)
    (parent : ∀ location, holds location → some .parent ∈ steps.map componentOf? →
      holds location.dropLast)
    (child : ∀ location name entry, holds location → tree.holdsDirectory location = true →
      some (.name name) ∈ steps.map componentOf? →
      tree.entry? (location ++ [name]) = some entry → (∀ target, entry ≠ .link target) →
      holds (location ++ [name])) :
    (∀ names, follow tree location steps = .location names → holds names) ∧
      ∀ base target rest, follow tree location steps = .link base target rest →
        holds base ∧ rest <:+ steps ∧
          ∃ name, some (.name name) ∈ steps.map componentOf? ∧ LinkAt tree base name target := by
  induction steps generalizing location with
  | nil =>
      constructor
      · intro names led
        obtain rfl := Stop.location.inj led
        exact start
      · intro base target rest led
        nomatch led
  | cons piece rest inductionHypothesis =>
      have extended {next : List String} (held : holds next) :
          (∀ names, follow tree next rest = .location names → holds names) ∧
            ∀ base target remaining, follow tree next rest = .link base target remaining →
              holds base ∧ remaining <:+ piece :: rest ∧
                ∃ name, some (.name name) ∈ (piece :: rest).map componentOf? ∧
                  LinkAt tree base name target := by
        obtain ⟨ends, interrupted⟩ := inductionHypothesis held
          (fun location held member => parent location held (List.mem_cons_of_mem _ member))
          (fun location name entry held directory member => child location name entry held
            directory (List.mem_cons_of_mem _ member))
        refine ⟨ends, fun base target remaining led => ?_⟩
        obtain ⟨kept, suffix, name, member, link⟩ := interrupted base target remaining led
        exact ⟨kept, suffix.trans (List.suffix_cons _ _), name, List.mem_cons_of_mem _ member,
          link⟩
      rw [follow]
      split
      · rename_i directory
        split
        · rename_i component
          exact extended (parent location start (by simp [component]))
        · rename_i name component
          have member : some (.name name) ∈ (piece :: rest).map componentOf? := by
            simp [component]
          split
          · exact ⟨nofun, nofun⟩
          · rename_i target present
            refine ⟨nofun, fun base other remaining led => ?_⟩
            obtain ⟨rfl, rfl, rfl⟩ := Stop.link.inj led
            exact ⟨start, List.suffix_cons _ _, name, member, directory, present⟩
          · rename_i entry solid present
            exact extended (child location name entry start directory member present solid)
        · exact extended start
      · exact ⟨nofun, nofun⟩

/-- A way without parent steps stays in a directory up to its end or to the first link, which is below
a location in the directory. -/
theorem follow_inside {directory : List String} {steps : List (List Char)}
    (within : directory <+: location) (descends : ∀ step ∈ steps, componentOf? step ≠ some .parent) :
    (∀ names, follow tree location steps = .location names → directory <+: names) ∧
      ∀ base target rest, follow tree location steps = .link base target rest →
        directory <+: base ∧ ∃ name, LinkAt tree base name target := by
  have noParent : some .parent ∉ steps.map componentOf? := by
    intro member
    obtain ⟨step, inside, parent⟩ := List.mem_map.1 member
    exact descends step inside parent
  obtain ⟨ends, interrupted⟩ := follow_keeps (directory <+: ·) within
    (fun _ _ member => absurd member noParent)
    (fun location name _ held _ _ _ _ => held.trans (List.prefix_append location [name]))
  refine ⟨ends, fun base target rest led => ?_⟩
  obtain ⟨kept, -, name, -, link⟩ := interrupted base target rest led
  exact ⟨kept, name, link⟩

/-- A way without slashes in its names goes from a grounded location to a grounded one, and a link
that interrupts it is below a grounded location as well. -/
theorem follow_grounded {steps : List (List Char)} (start : Grounded tree location)
    (clean : ∀ step ∈ steps, '/' ∉ step) :
    (∀ names, follow tree location steps = .location names → Grounded tree names) ∧
      ∀ base target rest, follow tree location steps = .link base target rest →
        Grounded tree base ∧ rest <:+ steps ∧
          ∃ name, IsFileName name ∧ LinkAt tree base name target := by
  have named {name : String} (member : some (.name name) ∈ steps.map componentOf?) :
      IsFileName name := by
    obtain ⟨step, inside, component⟩ := List.mem_map.1 member
    exact (Path.isFileName_of_componentOf? (clean step inside) component).1
  obtain ⟨ends, interrupted⟩ := follow_keeps (Grounded tree) start (fun _ held _ => held.dropLast)
    (fun _ _ _ held directory member present solid =>
      .child held directory (named member) present solid)
  refine ⟨ends, fun base target rest led => ?_⟩
  obtain ⟨grounded, suffix, name, member, link⟩ := interrupted base target rest led
  exact ⟨grounded, suffix, name, named member, link⟩

/-- A way through a tree succeeds when it ends at a location, or goes on from a link to its
target. -/
theorem followLinks_eq_ok_iff {links : Nat} {steps : List (List Char)} :
    followLinks tree links location steps = .ok names ↔
      follow tree location steps = .location names ∨
        ∃ fewer base target rest, links = fewer + 1 ∧
          follow tree location steps = .link base target rest ∧ target.text ≠ "" ∧
          followLinks tree fewer (startOf base target) (stepsOf target ++ rest) = .ok names := by
  rw [followLinks.eq_def]
  cases way : follow tree location steps with
  | location found => simp [way]
  | fault cause => simp [way]
  | link base target rest =>
      cases links with
      | zero => simp [way]
      | succ fewer => by_cases blank : target.text = "" <;> simp [way, blank]

/-- What holds of the ways that end without a link, and of a way with a link when it holds of what
follows the link, holds of every way that succeeds. -/
@[elab_as_elim]
theorem followLinks_induction
    {motive : ∀ links location steps, followLinks tree links location steps = .ok names → Prop}
    (ends : ∀ links location steps led, follow tree location steps = .location names →
      motive links location steps led)
    (link : ∀ fewer location steps led base target rest,
      follow tree location steps = .link base target rest → target.text ≠ "" →
      ∀ later : followLinks tree fewer (startOf base target) (stepsOf target ++ rest) = .ok names,
        motive fewer (startOf base target) (stepsOf target ++ rest) later →
        motive (fewer + 1) location steps led)
    {links : Nat} {location : List String} {steps : List (List Char)}
    (led : followLinks tree links location steps = .ok names) :
    motive links location steps led := by
  induction links using Nat.strong_induction_on generalizing location steps with
  | _ links inductionHypothesis =>
      rcases followLinks_eq_ok_iff.1 led with ended |
        ⟨fewer, base, target, rest, rfl, interrupted, written, later⟩
      · exact ends links location steps led ended
      · exact link fewer location steps led base target rest interrupted written later
          (inductionHypothesis fewer (Nat.lt_succ_self fewer) later)

/-- A way that succeeds also does so when more links may be read. -/
theorem followLinks_mono {links more : Nat} {steps : List (List Char)} (enough : links ≤ more)
    (led : followLinks tree links location steps = .ok names) :
    followLinks tree more location steps = .ok names := by
  induction led using followLinks_induction generalizing more with
  | ends _ _ _ _ ended => exact followLinks_eq_ok_iff.2 (.inl ended)
  | link fewer _ _ _ base target rest interrupted written _ inductionHypothesis =>
      obtain ⟨more, rfl⟩ := Nat.exists_eq_add_one_of_ne_zero (Nat.ne_zero_of_lt enough)
      have later := inductionHypothesis (Nat.le_of_succ_le_succ enough)
      exact followLinks_eq_ok_iff.2
        (.inr ⟨more, base, target, rest, rfl, interrupted, written, later⟩)

/-- A way goes on where its first part ends, and a link that interrupts the first part has the
second part behind it. -/
theorem follow_append (tree : FileTree) (location : List String)
    (first second : List (List Char)) :
    follow tree location (first ++ second) =
      match follow tree location first with
      | .location middle => follow tree middle second
      | .fault cause => .fault cause
      | .link base target rest => .link base target (rest ++ second) := by
  induction first generalizing location with
  | nil => rfl
  | cons piece rest inductionHypothesis =>
      rw [List.cons_append, follow, follow]
      split
      · split
        · exact inductionHypothesis _
        · split
          · rfl
          · rfl
          · exact inductionHypothesis _
        · exact inductionHypothesis _
      · rfl

/-- A way in two parts that succeeds reads some of the links on the first part and the others on the
second. -/
theorem exists_middle_of_followLinks {links : Nat} {first second : List (List Char)}
    (led : followLinks tree links location (first ++ second) = .ok names) :
    ∃ middle left, left ≤ links ∧ followLinks tree links location first = .ok middle ∧
      followLinks tree left middle second = .ok names := by
  generalize both : first ++ second = steps at led
  induction led using followLinks_induction generalizing first with
  | ends links location _ _ ended =>
      subst both
      rw [follow_append] at ended
      cases way : follow tree location first with
      | location middle =>
          rw [way] at ended
          exact ⟨middle, links, Nat.le_refl links, followLinks_eq_ok_iff.2 (.inl way),
            followLinks_eq_ok_iff.2 (.inl ended)⟩
      | fault cause => simp [way] at ended
      | link base target rest => simp [way] at ended
  | link fewer location _ _ base target rest interrupted written later inductionHypothesis =>
      subst both
      rw [follow_append] at interrupted
      cases way : follow tree location first with
      | location middle =>
          -- The link is on the second part, which is then the rest of the way.
          rw [way] at interrupted
          exact ⟨middle, fewer + 1, Nat.le_refl _, followLinks_eq_ok_iff.2 (.inl way),
            followLinks_eq_ok_iff.2
              (.inr ⟨fewer, base, target, rest, rfl, interrupted, written, later⟩)⟩
      | fault cause => simp [way] at interrupted
      | link here aim remaining =>
          rw [way] at interrupted
          obtain ⟨rfl, rfl, rfl⟩ := Stop.link.inj interrupted
          obtain ⟨middle, left, few, start, behind⟩ :=
            inductionHypothesis (List.append_assoc _ _ _)
          exact ⟨middle, left, Nat.le_succ_of_le few,
            followLinks_eq_ok_iff.2 (.inr ⟨_, _, _, _, rfl, way, written, start⟩), behind⟩

theorem clean_stepsOf (path : Path) : ∀ step ∈ stepsOf path, '/' ∉ step := by
  intro step member
  rw [stepsOf] at member
  split at member
  · exact Path.clean_of_mem_split (List.mem_of_mem_tail member)
  · exact Path.clean_of_mem_split member

/-- The target of a link is followed from a grounded location. -/
theorem Grounded.startOf (grounded : Grounded tree location) (path : Path) :
    Grounded tree (startOf location path) := by
  rw [FileTree.startOf]
  split
  · exact .root
  · exact grounded

/-- A way from a grounded location ends at a grounded one. -/
theorem grounded_of_followLinks {links : Nat} {steps : List (List Char)}
    (start : Grounded tree location) (clean : ∀ step ∈ steps, '/' ∉ step)
    (led : followLinks tree links location steps = .ok names) : Grounded tree names := by
  induction led using followLinks_induction with
  | ends _ _ _ _ ended => exact (follow_grounded start clean).1 names ended
  | link _ _ _ _ base target rest interrupted _ _ inductionHypothesis =>
      obtain ⟨grounded, suffix, -⟩ := (follow_grounded start clean).2 base target rest interrupted
      refine inductionHypothesis (grounded.startOf target) (fun step member => ?_)
      rcases List.mem_append.1 member with inTarget | behind
      · exact clean_stepsOf target step inTarget
      · exact clean step (suffix.subset behind)

end

end WorkflowBundle.FileTree
