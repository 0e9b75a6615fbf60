/-
This file says which placeholders a text has that is put together from parts.
-/

import WorkflowBundle.Proofs.Variable.Reference

namespace WorkflowBundle.Variable

section Run

variable {name : List Char} (clean : ∀ character ∈ name, isNameCharacter character = true)

include clean

/-- An opening brace starts a placeholder if the run of name characters behind it is not empty and
ends at a closing brace. -/
theorem placeholder?_run {next : Char} (stop : isNameCharacter next = false) (rest : List Char) :
    placeholder? ('\x7b' :: (name ++ next :: rest)) =
      if name ≠ [] ∧ next = '\x7d' then
        some ⟨['\x7b'] ++ name ++ ['\x7d'], String.ofList name⟩
      else none := by
  have taken := takeWhile_of_endsName clean (endsName_cons stop rest)
  have dropped := dropWhile_of_endsName clean (endsName_cons stop rest)
  by_cases closes : next = '\x7d'
  · subst closes
    simp [placeholder?, enclosed?, taken, dropped]
  · simp [placeholder?, enclosed?, taken, dropped, closes, Ne.symm closes]

/-- A run of name characters that nothing ends is no placeholder. -/
theorem placeholder?_of_clean : placeholder? ('\x7b' :: name) = none := by
  have dropped : (name ++ []).dropWhile isNameCharacter = [] :=
    List.dropWhile_append_of_pos clean
  rw [List.append_nil] at dropped
  simp [placeholder?, enclosed?, dropped]

end Run

/-- A text is a run of name characters, or such a run is ended by another character. -/
theorem clean_or_exists_run (text : List Char) :
    (∀ character ∈ text, isNameCharacter character = true) ∨
      ∃ name next rest, text = name ++ next :: rest ∧
        (∀ character ∈ name, isNameCharacter character = true) ∧
        isNameCharacter next = false := by
  induction text with
  | nil => exact .inl (List.forall_mem_nil _)
  | cons character text inductionHypothesis =>
      cases named : isNameCharacter character with
      | false => exact .inr ⟨[], character, text, rfl, List.forall_mem_nil _, named⟩
      | true =>
          rcases inductionHypothesis with clean | ⟨name, next, rest, rfl, clean, stop⟩
          · exact .inl (List.forall_mem_cons.2 ⟨named, clean⟩)
          · exact .inr ⟨character :: name, next, rest, rfl,
              List.forall_mem_cons.2 ⟨named, clean⟩, stop⟩

/-- Only an opening brace starts a placeholder. -/
theorem placeholder?_of_ne {character : Char} (other : character ≠ '\x7b') (rest : List Char) :
    placeholder? (character :: rest) = none := by
  simp [placeholder?, enclosed?, Ne.symm other]

/-- Other characters than an opening brace add no placeholder. -/
theorem placeholdersFrom_cons_of_ne {character : Char} (other : character ≠ '\x7b')
    (rest : List Char) : placeholdersFrom (character :: rest) = placeholdersFrom rest := by
  rw [placeholdersFrom, placeholder?_of_ne other]
  rfl

/-- A text leaves a name open when it ends in an opening brace and name characters behind it. -/
def LeavesOpen (text : List Char) : Prop :=
  ∃ before name, text = before ++ '\x7b' :: name ∧
    ∀ character ∈ name, isNameCharacter character = true

theorem not_leavesOpen_of_not_mem {text : List Char} (unopened : '\x7b' ∉ text) :
    ¬ LeavesOpen text := by
  rintro ⟨before, name, rfl, -⟩
  simp at unopened

/-- A text that ends in another character than a name character or an opening brace leaves no name
open. -/
theorem not_leavesOpen_concat (text : List Char) {last : Char}
    (outside : isNameCharacter last = false) (other : last ≠ '\x7b') :
    ¬ LeavesOpen (text ++ [last]) := by
  rintro ⟨before, name, same, clean⟩
  have final := congrArg List.getLast? same
  rw [List.getLast?_concat, List.getLast?_append, List.getLast?_cons, Option.some_or] at final
  rcases ends : name.getLast? with _ | character
  · exact other (by simpa [ends] using final)
  · have equal : last = character := by simpa [ends] using final
    have named := clean character (List.mem_of_getLast? ends)
    rw [← equal, outside] at named
    nomatch named

/-- Two texts that leave no name open leave none open together. -/
theorem not_leavesOpen_append {first second : List Char} (firstClosed : ¬ LeavesOpen first)
    (secondClosed : ¬ LeavesOpen second) : ¬ LeavesOpen (first ++ second) := by
  rintro ⟨before, name, same, clean⟩
  rcases List.append_eq_append_iff.1 same with ⟨more, rfl, inSecond⟩ | ⟨more, inFirst, inName⟩
  · exact secondClosed ⟨more, name, inSecond, clean⟩
  · cases more with
    | nil => exact secondClosed ⟨[], name, inName.symm, clean⟩
    | cons character more =>
        obtain ⟨rfl, rfl⟩ := List.cons.inj inName
        exact firstClosed ⟨before, more, inFirst, fun other member =>
          clean other (List.mem_append_left _ member)⟩

/-- The placeholder at the start of a text that leaves no name open does not depend on what follows
the text. -/
theorem placeholder?_append {character : Char} {text : List Char}
    (closed : ¬ LeavesOpen (character :: text)) (rest : List Char) :
    placeholder? (character :: (text ++ rest)) = placeholder? (character :: text) := by
  by_cases opens : character = '\x7b'
  · subst opens
    rcases clean_or_exists_run text with clean | ⟨name, next, behind, rfl, clean, stop⟩
    · exact absurd ⟨[], text, rfl, clean⟩ closed
    · rw [List.append_assoc, List.cons_append, placeholder?_run clean stop,
        placeholder?_run clean stop]
  · rw [placeholder?_of_ne opens, placeholder?_of_ne opens]

/-- A text that leaves no name open has its placeholders whatever follows it. -/
theorem placeholdersFrom_append {first : List Char} (closed : ¬ LeavesOpen first)
    (second : List Char) :
    placeholdersFrom (first ++ second) = placeholdersFrom first ++ placeholdersFrom second := by
  induction first with
  | nil => rfl
  | cons character rest inductionHypothesis =>
      have later : ¬ LeavesOpen rest := by
        rintro ⟨before, name, rfl, clean⟩
        exact closed ⟨character :: before, name, rfl, clean⟩
      rw [List.cons_append, placeholdersFrom, placeholdersFrom, placeholder?_append closed,
        inductionHypothesis later, List.append_assoc]

/-- A text without opening braces has no placeholders. -/
theorem placeholdersFrom_of_not_mem {text : List Char} (unopened : '\x7b' ∉ text) :
    placeholdersFrom text = [] := by
  induction text with
  | nil => rfl
  | cons character rest inductionHypothesis =>
      obtain ⟨other, later⟩ := List.ne_and_not_mem_of_not_mem_cons unopened
      rw [placeholdersFrom_cons_of_ne other.symm, inductionHypothesis later]

/-- A text shows some strings when it leaves no name open and has their placeholders, in order. -/
structure Shows (strings : List String) (text : List Char) : Prop where
  closed : ¬ LeavesOpen text
  placeholders : placeholdersFrom text =
    strings.flatMap fun string => placeholdersFrom string.toList

theorem shows_of_not_mem {text : List Char} (unopened : '\x7b' ∉ text) : Shows [] text :=
  ⟨not_leavesOpen_of_not_mem unopened, placeholdersFrom_of_not_mem unopened⟩

/-- Two texts show together what each of them shows. -/
theorem Shows.append {strings others : List String} {first second : List Char}
    (one : Shows strings first) (other : Shows others second) :
    Shows (strings ++ others) (first ++ second) := by
  refine ⟨not_leavesOpen_append one.closed other.closed, ?_⟩
  rw [placeholdersFrom_append one.closed, one.placeholders, other.placeholders,
    List.flatMap_append]

end WorkflowBundle.Variable
