/-
This file finds, replaces and splits at marks inside a text.
-/

namespace WorkflowBundle.Text

/-- Cutting at a mark yields the text before its first occurrence and the text after it. -/
def cut? (mark : List Char) : List Char → Option (List Char × List Char)
  | [] => if mark.isEmpty then some ([], []) else none
  | character :: rest =>
    if mark.isPrefixOf (character :: rest) then
      some ([], (character :: rest).drop mark.length)
    else
      (cut? mark rest).map fun (before, after) => (character :: before, after)

/-- What a cut yields is the text around one occurrence of the mark. -/
theorem eq_append_of_cut? {mark text before after : List Char}
    (found : cut? mark text = some (before, after)) : text = before ++ mark ++ after := by
  induction text generalizing before with
  | nil =>
    simp only [cut?] at found
    split at found
    · simp_all
    · simp at found
  | cons character rest inductionHypothesis =>
    simp only [cut?] at found
    split at found
    · rename_i starts
      obtain ⟨tail, equal⟩ := List.isPrefixOf_iff_prefix.1 starts
      simp only [Option.some.injEq, Prod.mk.injEq] at found
      obtain ⟨rfl, rfl⟩ := found
      rw [← equal]
      simp
    · simp only [Option.map_eq_some_iff, Prod.mk.injEq, Prod.exists] at found
      obtain ⟨inner, outer, cutRest, rfl, rfl⟩ := found
      rw [inductionHypothesis cutRest]
      simp

theorem isSome_cut?_iff {mark text : List Char} : (cut? mark text).isSome ↔ mark <:+: text := by
  induction text with
  | nil => cases mark <;> simp [cut?]
  | cons character rest inductionHypothesis =>
    rw [cut?, List.infix_cons_iff, ← List.isPrefixOf_iff_prefix]
    split
    · rename_i starts
      simp [starts]
    · rename_i apart
      simp [apart, inductionHypothesis]

/-- A text contains a mark when it can be cut there. -/
def contains (mark text : String) : Bool :=
  (cut? mark.toList text.toList).isSome

/-- Replacing skips the rest of a mark that was found and otherwise keeps each character. -/
def replaceFrom (mark replacement : List Char) : Nat → List Char → List Char
  | _, [] => []
  | pending + 1, _ :: rest => replaceFrom mark replacement pending rest
  | 0, character :: rest =>
    if mark.isPrefixOf (character :: rest) then
      replacement ++ replaceFrom mark replacement (mark.length - 1) rest
    else
      character :: replaceFrom mark replacement 0 rest

/-- This function replaces every occurrence of a nonempty mark, from left to right. -/
def replace (mark replacement text : String) : String :=
  String.ofList (replaceFrom mark.toList replacement.toList 0 text.toList)

/-- The pieces of a text are the longest parts without a separator, in order. -/
def pieces (isSeparator : Char → Bool) : List Char → List (List Char)
  | [] => [[]]
  | character :: rest =>
    if isSeparator character then
      [] :: pieces isSeparator rest
    else
      match pieces isSeparator rest with
      | [] => [[character]]
      | piece :: more => (character :: piece) :: more

theorem pieces_ne_nil (isSeparator : Char → Bool) (text : List Char) :
    pieces isSeparator text ≠ [] := by
  induction text with
  | nil => simp [pieces]
  | cons character rest inductionHypothesis =>
    simp only [pieces]
    split
    · simp
    · split <;> simp

theorem isSeparator_eq_false_of_mem_pieces {isSeparator : Char → Bool} {text piece : List Char}
    (member : piece ∈ pieces isSeparator text) :
    ∀ character ∈ piece, isSeparator character = false := by
  induction text generalizing piece with
  | nil => simp_all [pieces]
  | cons head rest inductionHypothesis =>
    simp only [pieces] at member
    split at member
    · rcases List.mem_cons.1 member with rfl | later
      · simp
      · exact inductionHypothesis later
    · split at member
      · rename_i plain _ empty
        exact absurd empty (pieces_ne_nil _ _)
      · rename_i plain _ first more equal
        rcases List.mem_cons.1 member with rfl | later
        · intro character inside
          rcases List.mem_cons.1 inside with rfl | deeper
          · simpa using plain
          · exact inductionHypothesis (equal ▸ List.mem_cons_self) character deeper
        · exact inductionHypothesis (equal ▸ List.mem_cons_of_mem _ later)

/-- A text without a separator is one piece. -/
theorem pieces_of_plain {isSeparator : Char → Bool} {text : List Char}
    (plain : ∀ character ∈ text, isSeparator character = false) :
    pieces isSeparator text = [text] := by
  induction text with
  | nil => rfl
  | cons character rest inductionHypothesis =>
    obtain ⟨head, tail⟩ := List.forall_mem_cons.1 plain
    rw [pieces, if_neg (by simp [head]), inductionHypothesis tail]

/-- A separator divides the pieces before it from those behind it. -/
theorem pieces_append {isSeparator : Char → Bool} {separator : Char}
    (separates : isSeparator separator = true) (first second : List Char) :
    pieces isSeparator (first ++ separator :: second) =
      pieces isSeparator first ++ pieces isSeparator second := by
  induction first with
  | nil => simp [pieces, separates]
  | cons character rest inductionHypothesis =>
    rw [List.cons_append, pieces, pieces, inductionHypothesis]
    split
    · rw [List.cons_append]
    · cases divided : pieces isSeparator rest with
      | nil => exact absurd divided (pieces_ne_nil isSeparator rest)
      | cons piece more => rfl

/-- A piece occurs in the text. -/
theorem infix_of_mem_pieces {isSeparator : Char → Bool} {text piece : List Char}
    (member : piece ∈ pieces isSeparator text) : piece <:+: text := by
  have divided (text : List Char) : ∃ first more, pieces isSeparator text = first :: more ∧
      first <+: text ∧ ∀ piece ∈ more, piece <:+: text := by
    induction text with
    | nil => exact ⟨[], [], rfl, List.prefix_refl _, nofun⟩
    | cons character rest inductionHypothesis =>
      obtain ⟨first, more, shape, starts, inside⟩ := inductionHypothesis
      have later : ∀ piece ∈ more, piece <:+: character :: rest :=
        fun piece member => (inside piece member).trans (List.suffix_cons _ _).isInfix
      rw [pieces, shape]
      split
      · refine ⟨[], first :: more, rfl, List.nil_prefix, ?_⟩
        exact List.forall_mem_cons.2
          ⟨starts.isInfix.trans (List.suffix_cons _ _).isInfix, later⟩
      · exact ⟨character :: first, more, rfl, List.cons_prefix_cons.2 ⟨rfl, starts⟩, later⟩
  obtain ⟨first, more, shape, starts, inside⟩ := divided text
  rw [shape] at member
  rcases List.mem_cons.1 member with rfl | later
  · exact starts.isInfix
  · exact inside piece later

/-- The size of a list of characters is the number of bytes of its UTF-8 form. -/
def byteSize (text : List Char) : Nat :=
  text.foldl (fun size character => size + character.utf8Size) 0

theorem byteSize_append (first second : List Char) :
    byteSize (first ++ second) = byteSize first + byteSize second := by
  have shifted (start : Nat) :
      second.foldl (fun size character => size + character.utf8Size) start =
        start + byteSize second := by
    unfold byteSize
    induction second generalizing start with
    | nil => rfl
    | cons character rest inductionHypothesis =>
      rw [List.foldl_cons, List.foldl_cons, inductionHypothesis, inductionHypothesis (0 + _)]
      omega
  rw [byteSize, List.foldl_append, shifted]
  rfl

def join (separator : String) (parts : List String) : String :=
  separator.intercalate parts

end WorkflowBundle.Text
