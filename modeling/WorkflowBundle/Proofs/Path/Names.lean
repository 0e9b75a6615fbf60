/-
This file relates absolute paths to the lists of names they are written from.
-/

import Mathlib.Data.List.Basic
import Mathlib.Data.List.Infix
import WorkflowBundle.Path.Escape

namespace WorkflowBundle.Path

/-- The name of a file is not empty, has no slash, and is no dot and no double dot. -/
def IsFileName (name : String) : Prop :=
  name.toList ≠ [] ∧ '/' ∉ name.toList ∧ name.toList ≠ ['.'] ∧ name.toList ≠ ['.', '.']

instance (name : String) : Decidable (IsFileName name) :=
  inferInstanceAs (Decidable (_ ∧ _))

def stepsOfNames (names : List String) : List (List Char) :=
  names.map String.toList

/-- The pieces of a text are the texts between its slashes. -/
abbrev split (text : List Char) : List (List Char) :=
  Text.pieces (· == '/') text

theorem componentOf?_of_isFileName {name : String} (named : IsFileName name) :
    componentOf? name.toList = some (.name name) := by
  obtain ⟨written, -, noDot, noDoubleDot⟩ := named
  simp [componentOf?, noDot, noDoubleDot, List.isEmpty_iff, written]

/-- A piece without a slash that is a named component has the name of a file. -/
theorem isFileName_of_componentOf? {piece : List Char} {name : String}
    (clean : '/' ∉ piece) (component : componentOf? piece = some (.name name)) :
    IsFileName name ∧ piece = name.toList := by
  rw [componentOf?] at component
  split at component
  · nomatch component
  · rename_i steps
    split at component
    · nomatch component
    · rename_i noParent
      obtain rfl := Component.name.inj (Option.some.inj component)
      rw [IsFileName, String.toList_ofList]
      simp only [Bool.or_eq_true, List.isEmpty_iff, beq_iff_eq, not_or] at steps
      exact ⟨⟨steps.1, clean, steps.2, by simpa using noParent⟩, rfl⟩

/-- A text without a slash is one piece. -/
theorem split_of_clean {text : List Char} (clean : '/' ∉ text) : split text = [text] := by
  apply Text.pieces_of_plain
  intro character member
  rw [beq_eq_false_iff_ne]
  rintro rfl
  exact clean member

theorem split_append (first second : List Char) :
    split (first ++ '/' :: second) = split first ++ split second :=
  Text.pieces_append (by rfl) first second

theorem clean_of_mem_split {text piece : List Char} (member : piece ∈ split text) :
    '/' ∉ piece := by
  intro slash
  have plain := Text.isSeparator_eq_false_of_mem_pieces member '/' slash
  exact absurd plain (by decide)

theorem writePieces_cons_cons (part next : List Char) (more : List (List Char)) :
    writePieces (part :: next :: more) = part ++ '/' :: writePieces (next :: more) := by
  simp [writePieces, List.intercalate_cons_cons]

theorem writePieces_append {first second : List (List Char)} (written : first ≠ [])
    (more : second ≠ []) :
    writePieces (first ++ second) = writePieces first ++ '/' :: writePieces second := by
  obtain ⟨next, others, rfl⟩ := List.exists_cons_of_ne_nil more
  induction first with
  | nil => exact absurd rfl written
  | cons part rest inductionHypothesis =>
      cases rest with
      | nil =>
          rw [List.singleton_append, writePieces_cons_cons]
          simp [writePieces]
      | cons second rest =>
          have behind := inductionHypothesis (List.cons_ne_nil second rest)
          rw [List.cons_append] at behind
          rw [List.cons_append, List.cons_append, writePieces_cons_cons, writePieces_cons_cons,
            behind, List.append_assoc, List.cons_append]

theorem writePieces_concat {parts : List (List Char)} (written : parts ≠ []) (last : List Char) :
    writePieces (parts ++ [last]) = writePieces parts ++ '/' :: last := by
  rw [writePieces_append written (List.cons_ne_nil last [])]
  simp [writePieces]

/-- Pieces are read back from their writing. -/
theorem split_writePieces {parts : List (List Char)} (written : parts ≠ [])
    (clean : ∀ part ∈ parts, '/' ∉ part) : split (writePieces parts) = parts := by
  induction parts with
  | nil => exact absurd rfl written
  | cons part rest inductionHypothesis =>
      obtain ⟨here, behind⟩ := List.forall_mem_cons.1 clean
      cases rest with
      | nil =>
          have single : writePieces [part] = part := by simp [writePieces]
          rw [single]
          exact split_of_clean here
      | cons next more =>
          rw [writePieces_cons_cons, split_append, split_of_clean here,
            inductionHypothesis (by simp) behind, List.singleton_append]

section

variable {names : List String}

theorem toList_ofNames (names : List String) :
    (ofNames names).text.toList = '/' :: writePieces (stepsOfNames names) := by
  rw [ofNames, String.toList_ofList]
  rfl

theorem clean_stepsOfNames (named : ∀ name ∈ names, IsFileName name) :
    ∀ step ∈ stepsOfNames names, '/' ∉ step := by
  intro step member
  obtain ⟨name, inside, rfl⟩ := List.mem_map.1 member
  exact (named name inside).2.1

theorem pieces_ofNames (written : names ≠ []) (named : ∀ name ∈ names, IsFileName name) :
    (ofNames names).pieces = [] :: stepsOfNames names := by
  have steps : stepsOfNames names ≠ [] := by simpa [stepsOfNames] using written
  rw [pieces, toList_ofNames]
  exact (split_append [] _).trans
    (congrArg ([[]] ++ ·) (split_writePieces steps (clean_stepsOfNames named)))

theorem pieces_root : (ofNames []).pieces = [[], []] := by
  decide

theorem isAbsolute_ofNames (names : List String) : (ofNames names).isAbsolute = true := by
  rw [isAbsolute, toList_ofNames]
  rfl

/-- Every file name is a component of its own. -/
theorem filterMap_stepsOfNames (named : ∀ name ∈ names, IsFileName name) :
    (stepsOfNames names).filterMap componentOf? = names.map .name := by
  induction names with
  | nil => rfl
  | cons name rest inductionHypothesis =>
      obtain ⟨here, behind⟩ := List.forall_mem_cons.1 named
      change List.filterMap _ (name.toList :: stepsOfNames rest) = _
      rw [List.filterMap_cons_some (componentOf?_of_isFileName here), inductionHypothesis behind]
      rfl

theorem components_ofNames (named : ∀ name ∈ names, IsFileName name) :
    (ofNames names).components = .root :: names.map .name := by
  rw [components, if_pos (isAbsolute_ofNames names)]
  cases names with
  | nil => rw [pieces_root]; rfl
  | cons name rest =>
      rw [pieces_ofNames (by simp) named, List.filterMap_cons_none (by rfl),
        filterMap_stepsOfNames named]

theorem eq_of_ofNames_eq {others : List String} (named : ∀ name ∈ names, IsFileName name)
    (otherNamed : ∀ name ∈ others, IsFileName name) (same : ofNames names = ofNames others) :
    names = others := by
  have components := components_ofNames named
  rw [same, components_ofNames otherNamed] at components
  exact (List.map_injective_iff.2 fun _ _ => Component.name.inj) (List.cons.inj components).2.symm

/-- A path of names starts with another one when its names do. -/
theorem startsWith_ofNames_iff {base : List String} (named : ∀ name ∈ names, IsFileName name)
    (baseNamed : ∀ name ∈ base, IsFileName name) :
    (ofNames names).startsWith (ofNames base) = true ↔ base <+: names := by
  have injective : Function.Injective Component.name := fun _ _ same => Component.name.inj same
  rw [startsWith, components_ofNames named, components_ofNames baseNamed,
    List.isPrefixOf_iff_prefix, List.cons_prefix_cons,
    List.prefix_map_iff_of_injective injective]
  exact and_iff_right rfl

theorem isStep_of_mem (named : ∀ name ∈ names, IsFileName name) :
    ∀ step ∈ stepsOfNames names, isStep step = true := by
  intro step member
  obtain ⟨name, inside, rfl⟩ := List.mem_map.1 member
  rw [isStep, componentOf?_of_isFileName (named name inside)]
  rfl

/-- Behind the last name nothing is dropped. -/
theorem trimPieces_stepsOfNames (named : ∀ name ∈ names, IsFileName name) :
    trimPieces (stepsOfNames names) = stepsOfNames names := by
  have kept : (stepsOfNames names).reverse.dropWhile (fun piece => !isStep piece) =
      (stepsOfNames names).reverse := by
    cases shape : (stepsOfNames names).reverse with
    | nil => rfl
    | cons last before =>
        have member : last ∈ stepsOfNames names := by
          rw [← List.mem_reverse, shape]
          exact List.mem_cons_self
        rw [List.dropWhile_cons_of_neg (by simp [isStep_of_mem named last member])]
  rw [trimPieces, kept, List.reverse_reverse]

theorem parent?_ofNames (written : names ≠ []) (named : ∀ name ∈ names, IsFileName name) :
    (ofNames names).parent? = some (ofNames names.dropLast) := by
  have before : ∀ name ∈ names.dropLast, IsFileName name := fun name member =>
    named name (List.dropLast_subset names member)
  have last : (ofNames names).components.getLast? = some (.name (names.getLast written)) := by
    rw [components_ofNames named]
    simp [List.getLast?_eq_some_getLast, written]
  have body : (ofNames names).body = stepsOfNames names := by
    rw [body, if_pos (by simp [isAbsolute_ofNames]), pieces_ofNames written named, List.tail_cons]
  have shortened : (stepsOfNames names).dropLast = stepsOfNames names.dropLast :=
    List.map_dropLast.symm
  rw [parent?, last, body, trimPieces_stepsOfNames named, shortened,
    trimPieces_stepsOfNames before]
  simp only [withBody, if_pos (isAbsolute_ofNames names)]
  rfl

theorem getLast?_writePieces {parts : List (List Char)} (written : parts ≠ [])
    (clean : ∀ part ∈ parts, part ≠ [] ∧ '/' ∉ part) :
    ∃ last, (writePieces parts).getLast? = some last ∧ last ≠ '/' := by
  induction parts with
  | nil => exact absurd rfl written
  | cons part rest inductionHypothesis =>
      obtain ⟨⟨nonempty, noSlash⟩, behind⟩ := List.forall_mem_cons.1 clean
      cases rest with
      | nil =>
          have single : writePieces [part] = part := by simp [writePieces]
          refine ⟨part.getLast nonempty, ?_, ?_⟩
          · rw [single, List.getLast?_eq_some_getLast nonempty]
          · intro slash
            exact noSlash (slash ▸ List.getLast_mem nonempty)
      | cons next more =>
          obtain ⟨last, ends, other⟩ := inductionHypothesis (by simp) behind
          refine ⟨last, ?_, other⟩
          rw [writePieces_cons_cons, List.getLast?_append, List.getLast?_cons, ends]
          rfl

/-- A path of names does not end with a slash, unless it is the root. -/
theorem getLast?_ofNames (written : names ≠ []) (named : ∀ name ∈ names, IsFileName name) :
    (ofNames names).text.toList.getLast? ≠ some '/' := by
  have steps : stepsOfNames names ≠ [] := by simpa [stepsOfNames] using written
  have clean : ∀ step ∈ stepsOfNames names, step ≠ [] ∧ '/' ∉ step := by
    intro step member
    obtain ⟨name, inside, rfl⟩ := List.mem_map.1 member
    exact ⟨(named name inside).1, (named name inside).2.1⟩
  obtain ⟨last, ends, other⟩ := getLast?_writePieces steps clean
  rw [toList_ofNames, List.getLast?_cons, ends]
  simpa using other

end

/-- Joining a relative path puts a slash behind a base that does not end with one. -/
theorem toList_join {base : Path} {reference : String} (written : base.text.toList ≠ [])
    (noSlash : base.text.toList.getLast? ≠ some '/')
    (relative : (Path.mk reference).isAbsolute = false) :
    (base.join reference).text.toList = base.text.toList ++ '/' :: reference.toList := by
  have nonempty : base.text ≠ "" := by
    intro empty
    rw [empty] at written
    exact written rfl
  simp [join, relative, nonempty, noSlash]

/-- The name of a file is a relative path. -/
theorem IsFileName.isAbsolute {name : String} (named : IsFileName name) :
    (Path.mk name).isAbsolute = false := by
  rw [Path.isAbsolute, beq_eq_false_iff_ne]
  intro slash
  exact named.2.1 (List.mem_of_mem_head? slash)

/-- Whatever is joined to an absolute path, the result is absolute. -/
theorem isAbsolute_join {base : Path} (absolute : base.isAbsolute = true) (reference : String) :
    (base.join reference).isAbsolute = true := by
  rw [join]
  split
  · assumption
  · obtain ⟨behind, starts⟩ := List.head?_eq_some_iff.1 (eq_of_beq absolute)
    split <;> simp [isAbsolute, starts]

/-- A relative path of names has one slash between neighbours. -/
def below (names : List String) : Path :=
  ⟨String.ofList (writePieces (stepsOfNames names))⟩

theorem toList_below (names : List String) :
    (below names).text.toList = writePieces (stepsOfNames names) := by
  rw [below, String.toList_ofList]

theorem isAbsolute_below {names : List String} (named : ∀ name ∈ names, IsFileName name) :
    (below names).isAbsolute = false := by
  rw [isAbsolute, toList_below, beq_eq_false_iff_ne]
  cases names with
  | nil => nofun
  | cons name rest =>
      obtain ⟨⟨written, noSlash, -⟩, -⟩ := List.forall_mem_cons.1 named
      obtain ⟨first, others, shape⟩ := List.exists_cons_of_ne_nil written
      -- The first character is one of the first name, whatever follows the name.
      have starts : (writePieces (stepsOfNames (name :: rest))).head? = some first := by
        cases rest with
        | nil => simp [stepsOfNames, writePieces, shape]
        | cons next more => simp [stepsOfNames, writePieces_cons_cons, shape]
      rw [starts]
      rintro ⟨⟩
      simp [shape] at noSlash

theorem join_below {names more : List String} (named : ∀ name ∈ names, IsFileName name)
    (moreNamed : ∀ name ∈ more, IsFileName name) (written : more ≠ []) :
    (ofNames names).join (below more).text = ofNames (names ++ more) := by
  have relative : (Path.mk (below more).text).isAbsolute = false := isAbsolute_below moreNamed
  have texts : ((ofNames names).join (below more).text).text.toList =
      (ofNames (names ++ more)).text.toList := by
    by_cases root : names = []
    · subst root
      simp [join, relative, toList_ofNames, toList_below, stepsOfNames, writePieces]
    · have steps : stepsOfNames names ≠ [] := by simpa [stepsOfNames] using root
      have moreSteps : stepsOfNames more ≠ [] := by simpa [stepsOfNames] using written
      have appended : stepsOfNames (names ++ more) = stepsOfNames names ++ stepsOfNames more :=
        List.map_append
      rw [toList_join (by simp [toList_ofNames]) (getLast?_ofNames root named) relative,
        toList_ofNames, toList_ofNames, toList_below, appended,
        writePieces_append steps moreSteps, List.cons_append]
  exact congrArg Path.mk (String.toList_inj.1 texts)

theorem IsFileName.split {name : String} (named : IsFileName name) :
    split name.toList = [name.toList] ∧ componentOf? name.toList ≠ some .parent := by
  refine ⟨split_of_clean named.2.1, ?_⟩
  rw [componentOf?_of_isFileName named]
  nofun

/-- A joined path does not end with a slash behind the name of a file. -/
theorem getLast?_join (base : Path) {name : String} (named : IsFileName name) :
    (base.join name).text.toList.getLast? ≠ some '/' := by
  obtain ⟨lead, written⟩ : ∃ lead, (base.join name).text.toList = lead ++ name.toList := by
    rw [join]
    split
    · exact ⟨[], rfl⟩
    · split
      · exact ⟨base.text.toList, String.toList_append⟩
      · exact ⟨(base.text ++ "/").toList, String.toList_append⟩
  rw [written, List.getLast?_append_of_ne_nil _ named.1]
  intro slash
  exact named.2.1 (List.mem_of_mem_getLast? slash)

/-- A reference that does not escape is relative and has no step to a parent. -/
theorem relative_of_ofReference? {reference : String}
    (accepted : Escape.ofReference? reference = none) :
    (Path.mk reference).isAbsolute = false ∧
      ∀ step ∈ split reference.toList, componentOf? step ≠ some .parent := by
  rw [Escape.ofReference?] at accepted
  split at accepted
  · nomatch accepted
  · rename_i noDots
    constructor
    · rw [isAbsolute]
      split at accepted
      · nomatch accepted
      · nomatch accepted
      · rename_i noSlash _
        rw [beq_eq_false_iff_ne]
        intro slash
        obtain ⟨rest, shape⟩ := List.head?_eq_some_iff.1 slash
        exact noSlash rest shape
    · intro step member component
      have dots : step = ['.', '.'] := by
        rw [componentOf?] at component
        split at component
        · nomatch component
        · split at component
          · rename_i dots
            exact eq_of_beq dots
          · nomatch component
      have inside := Text.isSome_cut?_iff.2 (dots ▸ Text.infix_of_mem_pieces member)
      exact noDots inside

end WorkflowBundle.Path
