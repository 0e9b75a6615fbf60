/-
This file reads the pieces of a path that a reference is joined to or written behind, and of its
parent.
-/

import Mathlib.Data.List.DropRight
import WorkflowBundle.Proofs.Path.Names

namespace WorkflowBundle.Path

section

variable {base : Path} {reference : String}

/-- The pieces of a reference that is joined to a path come behind those of the path, less the empty
one behind a last slash. -/
theorem pieces_join (written : base.text ≠ "") (relative : (Path.mk reference).isAbsolute = false) :
    ∃ before, before ≠ [] ∧ (base.join reference).pieces = before ++ split reference.toList ∧
      (base.pieces = before ∨ base.pieces = before ++ [[]]) := by
  have nonempty : base.text.toList ≠ [] := by simpa using written
  by_cases slash : base.text.toList.getLast? = some '/'
  · obtain ⟨front, shape⟩ := List.getLast?_eq_some_iff.1 slash
    have joined : (base.join reference).text.toList = front ++ '/' :: reference.toList := by
      rw [join, relative, slash]
      simp [shape]
    refine ⟨split front, Text.pieces_ne_nil _ _, ?_, .inr ?_⟩
    · rw [pieces, joined]
      exact split_append _ _
    · rw [pieces, shape]
      exact split_append front []
  · refine ⟨base.pieces, Text.pieces_ne_nil _ _, ?_, .inl rfl⟩
    rw [pieces, toList_join nonempty slash relative]
    exact split_append _ _

/-- The pieces of a reference are the last ones of any path it is joined to. -/
theorem exists_pieces_join (base : Path) (relative : (Path.mk reference).isAbsolute = false) :
    ∃ before, (base.join reference).pieces = before ++ split reference.toList := by
  by_cases written : base.text = ""
  · refine ⟨[], ?_⟩
    rw [join, relative, written]
    simp [pieces]
  · obtain ⟨before, -, joined, -⟩ := pieces_join written relative
    exact ⟨before, joined⟩

/-- A relative path below a path is absolute when the path is. -/
theorem isAbsolute_join_eq (written : base.text ≠ "")
    (relative : (Path.mk reference).isAbsolute = false) :
    (base.join reference).isAbsolute = base.isAbsolute := by
  have nonempty : base.text.toList ≠ [] := by simpa using written
  obtain ⟨head, tail, shape⟩ := List.exists_cons_of_ne_nil nonempty
  rw [join, relative]
  simp only [Bool.false_eq_true, if_false]
  split <;> simp [isAbsolute, shape]

/-- Where pieces come behind those of a path, less an empty one behind a last slash, their
components come behind the components of the path. -/
theorem components_of_pieces {path : Path} {before more : List (List Char)} (front : before ≠ [])
    (alike : path.isAbsolute = base.isAbsolute) (pieces : path.pieces = before ++ more)
    (own : base.pieces = before ∨ base.pieces = before ++ [[]]) :
    path.components = base.components ++ more.filterMap componentOf? := by
  have steps : base.pieces.filterMap componentOf? = before.filterMap componentOf? := by
    rcases own with same | slash
    · rw [same]
    · rw [slash, List.filterMap_append, List.filterMap_cons_none (by rfl), List.filterMap_nil,
        List.append_nil]
  have starts : path.startsAtCurrent = base.startsAtCurrent := by
    obtain ⟨first, others, rfl⟩ := List.exists_cons_of_ne_nil front
    rw [startsAtCurrent, startsAtCurrent, pieces]
    rcases own with same | slash
    · rw [same]
      rfl
    · rw [slash]
      rfl
  rw [components, components, alike, starts, pieces, List.filterMap_append, steps]
  split
  · rfl
  · split <;> rfl

/-- The components of a relative reference that is joined to a path follow those of the path. -/
theorem components_join_of_written (written : base.text ≠ "")
    (relative : (Path.mk reference).isAbsolute = false) :
    (base.join reference).components =
      base.components ++ (split reference.toList).filterMap componentOf? := by
  obtain ⟨before, front, joined, own⟩ := pieces_join written relative
  exact components_of_pieces front (isAbsolute_join_eq written relative) joined own

/-- A piece without a slash stands for a step to the parent or for the name of a file. -/
theorem parent_or_isFileName_of_componentOf? {piece : List Char} {component : Component}
    (clean : '/' ∉ piece) (found : componentOf? piece = some component) :
    component = .parent ∨ ∃ name, IsFileName name ∧ component = .name name := by
  have shown := found
  rw [componentOf?] at found
  split at found
  · cases found
  · split at found
    · exact .inl (Option.some.inj found).symm
    · obtain rfl := Option.some.inj found
      exact .inr ⟨_, (isFileName_of_componentOf? clean shown).1, rfl⟩

/-- The steps of a reference that does not escape are names of files. -/
theorem exists_names_of_ofReference? (accepted : Escape.ofReference? reference = none) :
    ∃ names : List String, (∀ name ∈ names, IsFileName name) ∧
      (split reference.toList).filterMap componentOf? = names.map .name := by
  have descends := (relative_of_ofReference? accepted).2
  have clean : ∀ step ∈ split reference.toList, '/' ∉ step := fun _ => clean_of_mem_split
  generalize split reference.toList = steps at descends clean
  induction steps with
  | nil => exact ⟨[], List.forall_mem_nil _, rfl⟩
  | cons step rest inductionHypothesis =>
      obtain ⟨here, behind⟩ := List.forall_mem_cons.1 descends
      obtain ⟨noSlash, later⟩ := List.forall_mem_cons.1 clean
      obtain ⟨names, named, components⟩ := inductionHypothesis behind later
      cases found : componentOf? step with
      | none => exact ⟨names, named, by rw [List.filterMap_cons_none found, components]⟩
      | some component =>
          obtain rfl | ⟨name, isName, rfl⟩ := parent_or_isFileName_of_componentOf? noSlash found
          · exact absurd found here
          · refine ⟨name :: names, List.forall_mem_cons.2 ⟨isName, named⟩, ?_⟩
            rw [List.filterMap_cons_some found, components, List.map_cons]

/-- A text goes below a path when it is empty or starts with a slash. -/
def GoesBelow (text : String) : Prop :=
  text = "" ∨ (Path.mk text).isAbsolute = true

/-- A text that goes below another one divides where it starts. -/
theorem filterMap_split_append (first : List Char) {rest : String} (below : GoesBelow rest) :
    (split (first ++ rest.toList)).filterMap componentOf? =
      (split first).filterMap componentOf? ++ (split rest.toList).filterMap componentOf? := by
  rcases below with rfl | absolute
  · simp [split_of_clean, componentOf?]
  · obtain ⟨behind, shape⟩ := List.head?_eq_some_iff.1 (eq_of_beq absolute)
    have alone : split ('/' :: behind) = [] :: split behind := split_append [] behind
    rw [shape, split_append, alone, List.filterMap_append, List.filterMap_cons_none (by rfl)]

theorem components_append {rest : String} (written : base.text ≠ "") (below : GoesBelow rest) :
    (Path.mk (base.text ++ rest)).components =
      base.components ++ (split rest.toList).filterMap componentOf? := by
  have alike : (Path.mk (base.text ++ rest)).isAbsolute = base.isAbsolute := by
    have nonempty : base.text.toList ≠ [] := by simpa using written
    obtain ⟨head, tail, shape⟩ := List.exists_cons_of_ne_nil nonempty
    simp [isAbsolute, shape]
  rcases below with rfl | absolute
  · simp [split_of_clean, componentOf?]
  · obtain ⟨behind, shape⟩ := List.head?_eq_some_iff.1 (eq_of_beq absolute)
    have alone : split rest.toList = [] :: split behind := by
      rw [shape]
      exact split_append [] behind
    have pieces : (Path.mk (base.text ++ rest)).pieces = base.pieces ++ split behind := by
      rw [Path.pieces, String.toList_append, shape]
      exact split_append _ _
    rw [alone, List.filterMap_cons_none (by rfl)]
    exact components_of_pieces (Text.pieces_ne_nil _ _) alike pieces (.inl rfl)

end

section

variable {path : Path} {before : List (List Char)} {folder name : List Char} {file : String}

/-- The pieces of a path are its body behind a lead, which is an empty piece before a slash or a dot,
or nothing. -/
theorem exists_lead (path : Path) :
    ∃ lead, path.pieces = lead ++ path.body ∧ (∀ piece ∈ lead, isStep piece = false) ∧
      ∀ parts, parts ≠ [] → path.withBody parts = ⟨String.ofList (writePieces (lead ++ parts))⟩ := by
  have led (first : List Char) (starts : path.pieces.head? = some first)
      (parts : List (List Char)) (written : parts ≠ []) :
      path.pieces = [first] ++ path.pieces.tail ∧
        writePieces ([first] ++ parts) = first ++ '/' :: writePieces parts := by
    obtain ⟨next, more, rfl⟩ := List.exists_cons_of_ne_nil written
    refine ⟨(List.cons_head?_tail starts).symm, ?_⟩
    exact writePieces_cons_cons _ _ _
  by_cases absolute : path.isAbsolute = true
  · have starts : path.pieces.head? = some [] := by
      obtain ⟨behind, shape⟩ := List.head?_eq_some_iff.1 (eq_of_beq absolute)
      rw [pieces, shape]
      exact congrArg List.head? (split_append [] behind)
    refine ⟨[[]], ?_, by simp [isStep, componentOf?], fun parts written => ?_⟩
    · rw [body, absolute, Bool.true_or, if_pos rfl]
      exact (led [] starts [[]] (List.cons_ne_nil _ _)).1
    · rw [(led [] starts parts written).2, withBody, if_pos absolute]
      rfl
  · by_cases current : path.startsAtCurrent = true
    · have starts : path.pieces.head? = some ['.'] := eq_of_beq current
      refine ⟨[['.']], ?_, by simp [isStep, componentOf?], fun parts written => ?_⟩
      · rw [body, current, Bool.or_true, if_pos rfl]
        exact (led ['.'] starts [[]] (List.cons_ne_nil _ _)).1
      · rw [(led ['.'] starts parts written).2, withBody, if_neg absolute, if_pos current,
          if_neg (by simpa using written)]
        rfl
    · refine ⟨[], ?_, List.forall_mem_nil _, fun parts written => ?_⟩
      · rw [body, if_neg (by simp [absolute, current])]
        rfl
      · rw [withBody, if_neg absolute, if_neg current]
        rfl

/-- Behind a step nothing is trimmed. -/
theorem trimPieces_concat (parts : List (List Char)) {last : List Char} (step : isStep last = true) :
    trimPieces (parts ++ [last]) = parts ++ [last] :=
  List.rdropWhile_concat_neg _ _ _ (by simp [step])

/-- The components of a path start with what its form shows, and its steps follow. -/
theorem exists_components (path : Path) :
    ∃ lead, path.components = lead ++ path.pieces.filterMap componentOf? := by
  rw [components]
  split
  · exact ⟨[.root], rfl⟩
  · split
    · exact ⟨[.current], rfl⟩
    · exact ⟨[], rfl⟩

/-- The parent of a path that ends with a step and a name leaves out the name. -/
theorem parent?_of_pieces (shape : path.pieces = before ++ [folder, name])
    (step : isStep folder = true) (named : componentOf? name = some (.name file)) :
    path.parent? = some ⟨String.ofList (writePieces (before ++ [folder]))⟩ := by
  have nameStep : isStep name = true := by
    rw [isStep, named]
    rfl
  have last : path.components.getLast? = some (.name file) := by
    have steps : path.pieces.filterMap componentOf? =
        (before ++ [folder]).filterMap componentOf? ++ [.name file] := by
      rw [shape, List.append_cons, List.filterMap_append]
      simp [named]
    obtain ⟨lead, components⟩ := exists_components path
    rw [components, steps, ← List.append_assoc, List.getLast?_concat]
  obtain ⟨lead, pieces, noSteps, withBody⟩ := exists_lead path
  -- The lead has no step, so it ends before the folder.
  obtain ⟨front, rfl, body⟩ : ∃ front, before = lead ++ front ∧
      path.body = front ++ [folder, name] := by
    rcases List.append_eq_append_iff.1 (shape.symm.trans pieces) with
      ⟨front, rest, same⟩ | ⟨front, rest, same⟩
    · cases front with
      | nil => exact ⟨[], by simpa using rest.symm, by simpa using same.symm⟩
      | cons first more =>
          obtain ⟨rfl, -⟩ := List.cons.inj same
          have inLead : folder ∈ lead := rest ▸ List.mem_append_right _ List.mem_cons_self
          exact absurd step (Bool.eq_false_iff.1 (noSteps folder inLead))
    · exact ⟨front, rest, same⟩
  rw [parent?, last, body, List.append_cons, trimPieces_concat _ nameStep, List.dropLast_concat,
    trimPieces_concat _ step]
  dsimp only
  rw [withBody _ (by simp), List.append_assoc]

/-- A path that ends with a step and a name has a parent with a text. -/
theorem exists_parent_of_pieces (shape : path.pieces = before ++ [folder, name])
    (step : isStep folder = true) (named : componentOf? name = some (.name file)) :
    ∃ parent, path.parent? = some parent ∧ parent.text ≠ "" := by
  refine ⟨_, parent?_of_pieces shape step named, ?_⟩
  have written : writePieces (before ++ [folder]) ≠ [] := by
    by_cases first : before = []
    · intro empty
      have nothing : folder = [] := by simpa [first, writePieces] using empty
      rw [nothing] at step
      exact absurd step Bool.false_ne_true
    · rw [writePieces_concat first]
      exact List.append_ne_nil_of_right_ne_nil _ (List.cons_ne_nil _ _)
  simpa using written

end

end WorkflowBundle.Path
