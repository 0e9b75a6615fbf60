/-
This file compares two ways to put a text in the place of a name in braces: replacing the braced
name wherever it occurs, and filling the references of the text.
-/

import WorkflowBundle.Proofs.Text.Replacement
import WorkflowBundle.Proofs.Variable.Scan
import WorkflowBundle.Proofs.Variable.Substitution

namespace WorkflowBundle.Variable

/-- A name has name characters only, and at least one. -/
def IsName (name : String) : Prop :=
  name.toList ≠ [] ∧ ∀ character ∈ name.toList, isNameCharacter character = true

instance (name : String) : Decidable (IsName name) :=
  decidable_of_iff (name.toList ≠ [] ∧ name.toList.all isNameCharacter = true)
    (and_congr_right fun _ => List.all_eq_true)

/-- A text may be enclosed in braces. -/
def embraced (enclosed : Bool) (text : String) : String :=
  if enclosed then "\x7b" ++ text ++ "\x7d" else text

def marked (name : String) : String := embraced true name

/-- A reference to a name is spelled with single or with double braces. -/
def spelled (doubled : Bool) (name : String) : String :=
  embraced doubled (marked name)

@[simp] theorem toList_embraced_true (text : String) :
    (embraced true text).toList = '\x7b' :: (text.toList ++ ['\x7d']) := by
  simp [embraced]

@[simp] theorem embraced_false (text : String) : embraced false text = text := rfl

@[simp] theorem toList_marked (name : String) :
    (marked name).toList = '\x7b' :: (name.toList ++ ['\x7d']) :=
  toList_embraced_true name

section

variable {name : String} (isName : IsName name)

include isName

/-- A marked name is a placeholder, whatever follows it. -/
theorem placeholder?_marked (rest : List Char) :
    placeholder? ((marked name).toList ++ rest) = some ⟨(marked name).toList, name⟩ := by
  have run : placeholder? ('\x7b' :: (name.toList ++ '\x7d' :: rest)) = _ :=
    placeholder?_run isName.2 (by decide) rest
  rw [if_pos ⟨isName.1, rfl⟩, String.ofList_toList] at run
  simpa using run

/-- A name that occurs in braces is a placeholder of the text. -/
theorem mem_placeholdersFrom_of_occurs {text : List Char}
    (occurs : (marked name).toList <:+: text) : name ∈ placeholdersFrom text := by
  induction text with
  | nil => simp at occurs
  | cons character rest inductionHypothesis =>
      rw [placeholdersFrom]
      rcases List.infix_cons_iff.1 occurs with ⟨behind, here⟩ | later
      · rw [← here, placeholder?_marked isName]
        exact List.mem_append_left _ List.mem_cons_self
      · exact List.mem_append_right _ (inductionHypothesis later)

/-- A marked name has itself as its only placeholder. -/
theorem placeholdersFrom_marked (rest : List Char) :
    placeholdersFrom ((marked name).toList ++ rest) = name :: placeholdersFrom rest := by
  have opened := placeholder?_marked isName rest
  have unopened : '\x7b' ∉ name.toList ++ ['\x7d'] := by
    simpa using not_mem_of_clean isName.2
  rw [toList_marked, List.cons_append] at opened ⊢
  rw [placeholdersFrom, opened, placeholdersFrom_append (not_leavesOpen_of_not_mem unopened),
    placeholdersFrom_of_not_mem unopened]
  rfl

/-- A reference has its name as its only placeholder, with either spelling. -/
theorem placeholdersFrom_spelled (doubled : Bool) {rest : String}
    (plain : hasPlaceholder rest = false) :
    placeholdersFrom (spelled doubled name ++ rest).toList = [name] := by
  have nothing : placeholdersFrom rest.toList = [] := by simpa [hasPlaceholder] using plain
  cases doubled with
  | false =>
      rw [spelled, embraced_false, String.toList_append, placeholdersFrom_marked isName, nothing]
  | true =>
      have outer :
          placeholder? ('\x7b' :: ((marked name).toList ++ '\x7d' :: rest.toList)) = none := by
        have run (more : List Char) : placeholder? ('\x7b' :: ([] ++ '\x7b' :: more)) = _ :=
          placeholder?_run (List.forall_mem_nil _) (by decide) more
        simpa using run (name.toList ++ '\x7d' :: '\x7d' :: rest.toList)
      rw [spelled, String.toList_append, toList_embraced_true, List.cons_append, List.append_assoc,
        List.singleton_append, placeholdersFrom, outer, placeholdersFrom_marked isName,
        placeholdersFrom_cons_of_ne (by decide), nothing]
      rfl

/-- Replacing a marked name keeps a text that does not have the name as a placeholder. -/
theorem replace_marked_of_not_mem (replacement : String) {text : String}
    (absent : name ∉ placeholdersFrom text.toList) :
    Text.replace (marked name) replacement text = text :=
  Text.replace_of_not_infix replacement fun occurs =>
    absent (mem_placeholdersFrom_of_occurs isName occurs)

/-- Replacing a marked name leaves the second braces of a doubly braced one around the
replacement. -/
theorem replace_marked_spelled (doubled : Bool) (replacement : String) {rest : String}
    (plain : hasPlaceholder rest = false) :
    Text.replace (marked name) replacement (spelled doubled name ++ rest) =
      embraced doubled replacement ++ rest := by
  have nothing : placeholdersFrom rest.toList = [] := by simpa [hasPlaceholder] using plain
  have written : (marked name).toList ≠ [] := by simp
  -- Behind the replaced name the marked name does not occur again.
  have behind (more : List Char) (other : placeholdersFrom more = []) :
      Text.replaceFrom (marked name).toList replacement.toList 0 more = more := by
    refine Text.replaceFrom_of_not_infix fun occurs => ?_
    have inside := mem_placeholdersFrom_of_occurs isName occurs
    rw [other] at inside
    exact List.not_mem_nil inside
  apply String.toList_injective
  rw [Text.replace, String.toList_ofList]
  cases doubled with
  | false =>
      rw [spelled, embraced_false, embraced_false, String.toList_append, String.toList_append,
        Text.replaceFrom_mark_append written, behind _ nothing]
  | true =>
      have apart : ¬ (marked name).toList <+:
          '\x7b' :: ((marked name).toList ++ '\x7d' :: rest.toList) := by
        obtain ⟨first, others, shape⟩ := List.exists_cons_of_ne_nil isName.1
        have single := ne_brace_of_isNameCharacter (isName.2 first (by simp [shape]))
        simp [shape, single]
      have closing : placeholdersFrom ('\x7d' :: rest.toList) = [] := by
        rw [placeholdersFrom_cons_of_ne (by decide), nothing]
      rw [spelled, String.toList_append, String.toList_append, toList_embraced_true,
        toList_embraced_true, List.cons_append, List.append_assoc, List.singleton_append,
        Text.replaceFrom_cons apart, Text.replaceFrom_mark_append written, behind _ closing]
      simp

/-- Either spelling of a name is read as a reference to it, unless the name with a colon behind it
marks a key of the configuration. -/
theorem reference?_spelled (doubled : Bool) (other : name ≠ "config_source") (rest : List Char) :
    reference? ((spelled doubled name).toList ++ rest) =
      some ⟨(spelled doubled name).toList, name⟩ := by
  refine reference?_eq_some_iff.2 ⟨name.toList, rest, isName.1, isName.2,
    String.ofList_toList.symm, rfl, ?_⟩
  cases doubled with
  | true => exact .inl (by simp [spelled])
  | false =>
      refine .inr (.inr ⟨by simp [spelled], ?_⟩)
      rw [Option.eq_none_iff_forall_ne_some]
      intro found read
      obtain ⟨key, more, -, -, -, -, shape⟩ := enclosed?_eq_some_iff.1 read
      -- The mark of a configuration key is a name in braces, and only one such name starts a text.
      have first := placeholder?_marked isName rest
      have mark : configurationMark = (marked "config_source").toList ++ [':'] := by decide
      rw [← embraced_false (marked name), ← spelled, shape, mark, List.append_assoc,
        placeholder?_marked (by decide)] at first
      exact other (congrArg Reference.name (Option.some.inj first)).symm

/-- A text that starts with a reference, in either spelling, is filled with the text of the name and
what the text behind it is filled with. -/
theorem fill_spelled {lookup : String → Option String} {text : String} (doubled : Bool)
    (other : name ≠ "config_source") (known : lookup name = some text) (rest : String) :
    fill lookup (spelled doubled name ++ rest) = text ++ fill lookup rest := by
  let found : Reference := ⟨(spelled doubled name).toList, name⟩
  have scanned : segmentsFrom 0 ((spelled doubled name).toList ++ rest.toList) =
      .reference found :: segmentsFrom 0 rest.toList :=
    @segmentsFrom_reference found rest.toList (reference?_spelled isName doubled other rest.toList)
  rw [fill, segments, String.toList_append, scanned, List.flatMap_cons, Segment.replacement, known,
    String.ofList_append]
  exact congrArg (· ++ fill lookup rest) String.ofList_toList

end

end WorkflowBundle.Variable
