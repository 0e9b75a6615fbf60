/-
This file says where the front matter of a document ends, and which documents it leaves whole.
-/

import WorkflowBundle.Proofs.Text.Search
import WorkflowBundle.Workflow.FrontMatter

namespace WorkflowBundle.FrontMatter

open WorkflowBundle.Text (cut? ofLines)

/-- A line break is a carriage return or a line feed. -/
def isLineBreak (character : Char) : Bool :=
  character == '\r' || character == '\n'

/-- The front matter of a document lasts from its opening mark to the cut at the next one, and the
body follows behind line breaks. -/
theorem split?_eq_some_iff {text block rest : String} :
    split? text = some (block, rest) ↔
      ∃ behind after, text.toList = mark ++ behind ∧
        cut? mark behind = some (block.toList, after) ∧
        rest = String.ofList (after.dropWhile isLineBreak) := by
  rw [split?]
  split
  · rename_i starts
    obtain ⟨behind, same⟩ := List.isPrefixOf_iff_prefix.1 starts
    rw [← same, List.drop_left, Option.map_eq_some_iff]
    constructor
    · rintro ⟨⟨before, after⟩, cut, parts⟩
      obtain ⟨rfl, rfl⟩ := Prod.mk.inj parts
      exact ⟨behind, after, rfl, String.toList_ofList.symm ▸ cut, rfl⟩
    · rintro ⟨other, after, shape, cut, rfl⟩
      obtain rfl := List.append_cancel_left shape
      exact ⟨(block.toList, after), cut, congrArg (·, _) String.ofList_toList⟩
  · rename_i apart
    constructor
    · nofun
    · rintro ⟨behind, after, shape, -, -⟩
      exact absurd (List.isPrefixOf_iff_prefix.2 ⟨behind, shape.symm⟩) apart

/-- A document with front matter consists of two marks around the block, line breaks and the body,
which starts with no line break. -/
theorem exists_breaks_of_split? {text block rest : String}
    (delimited : split? text = some (block, rest)) :
    ∃ breaks, (∀ character ∈ breaks, isLineBreak character = true) ∧
      rest.toList.head?.any isLineBreak = false ∧
      text.toList = mark ++ block.toList ++ mark ++ breaks ++ rest.toList := by
  obtain ⟨behind, after, shape, cut, rfl⟩ := split?_eq_some_iff.1 delimited
  refine ⟨after.takeWhile isLineBreak, List.all_eq_true.1 List.all_takeWhile, ?_, ?_⟩
  · rw [String.toList_ofList]
    have head := List.head?_dropWhile_not isLineBreak after
    cases first : (after.dropWhile isLineBreak).head? with
    | none => rfl
    | some character =>
        rw [first] at head
        simpa using head
  · rw [shape, Text.eq_append_of_cut? cut, String.toList_ofList]
    simp [List.takeWhile_append_dropWhile]

/-- The body of a document is the whole text if and only if no front matter is delimited. -/
theorem body_eq_self_iff (text : String) : body text = text ↔ split? text = none := by
  rw [body]
  cases delimited : split? text with
  | none => simp
  | some parts =>
      obtain ⟨block, rest⟩ := parts
      obtain ⟨breaks, -, -, shape⟩ := exists_breaks_of_split? delimited
      have longer : rest.length < text.length := by
        have marked : 0 < mark.length := by decide
        have lengths := congrArg List.length shape
        simp only [List.length_append, String.length_toList] at lengths
        omega
      simp only [reduceCtorEq, iff_false]
      rintro rfl
      omega

/-- A block is malformed when it is not blank and holds neither a mapping nor null. -/
def isMalformed (block : String) : Bool :=
  !Text.isBlankText block &&
    match Yaml.parse block with
    | .ok (.mapping _) | .ok .null => false
    | _ => true

/-- Front matter that is not delimited or malformed has no settings. -/
theorem settings_of_malformed {text : String}
    (malformed : ∀ block rest, split? text = some (block, rest) → isMalformed block = true) :
    settings text = [] := by
  rw [settings]
  split
  · rfl
  · rename_i block rest delimited
    obtain ⟨written, unmapped⟩ := Bool.and_eq_true_iff.1 (malformed block rest delimited)
    rw [if_neg (by simpa using written)]
    split
    · rename_i entries parsed
      simp [parsed] at unmapped
    · rfl

/-- A mark occurs in a block of lines, or starts at its end, if and only if it occurs on a line or in
what stands behind the last one. -/
theorem infix_block_iff (lines : List (List Char)) (last : List Char) :
    mark <:+: '\n' :: (ofLines lines ++ last) ++ mark.dropLast ↔
      (∃ line ∈ lines, mark <:+: line) ∨ mark <:+: last ++ mark.dropLast := by
  have single : '\n' ∉ mark := by decide
  have apart : ¬ mark <:+: [] := by decide
  rw [List.cons_append, List.append_assoc, ← List.nil_append ('\n' :: _),
    Text.infix_append_cons_iff single, or_iff_right apart, Text.infix_ofLines_append_iff single]

/-- Front matter ends at the first mark behind its opening one, wherever on a line it stands. -/
theorem split?_of_first_mark {lines : List (List Char)} {before : List Char}
    (unmarked : ∀ line ∈ lines, ¬ mark <:+: line) (fresh : ¬ mark <:+: before ++ mark.dropLast)
    (after : List Char) :
    split? (String.ofList (mark ++ '\n' :: (ofLines lines ++ (before ++ mark ++ after)))) =
      some (String.ofList ('\n' :: (ofLines lines ++ before)),
        String.ofList (after.dropWhile isLineBreak)) := by
  have absent : ¬ mark <:+: '\n' :: (ofLines lines ++ before) ++ mark.dropLast := by
    rw [infix_block_iff, not_or]
    exact ⟨fun ⟨line, member, inside⟩ => unmarked line member inside, fresh⟩
  have cut := Text.cut?_append (by decide) absent after
  refine split?_eq_some_iff.2 ⟨_, after, String.toList_ofList, ?_, rfl⟩
  rw [String.toList_ofList, ← cut]
  simp

/-- A document with front matter has some lines between two lines that are the mark, and a body
behind them. -/
def document (lines : List (List Char)) (body : List Char) : String :=
  String.ofList (mark ++ '\n' :: (ofLines lines ++ (mark ++ '\n' :: body)))

/-- The front matter of a document is the lines between its marks, and its body follows, if and only
if no line holds a mark. Otherwise the front matter ends inside the first line that holds one, and
the rest of the lines belongs to the body. -/
theorem front_matter_is_lines_iff_unmarked {lines : List (List Char)} {body : List Char}
    (starts : body.head?.any isLineBreak = false) :
    (split? (document lines body) =
        some (String.ofList ('\n' :: ofLines lines), String.ofList body) ↔
      ∀ line ∈ lines, ¬ mark <:+: line) ∧
    ∀ earlier line later before after, lines = earlier ++ line :: later →
      (∀ other ∈ earlier, ¬ mark <:+: other) → cut? mark line = some (before, after) →
      split? (document lines body) =
        some (String.ofList ('\n' :: (ofLines earlier ++ before)),
          String.ofList ((after ++ '\n' :: (ofLines later ++ (mark ++ '\n' :: body))).dropWhile
            isLineBreak)) := by
  constructor
  · constructor
    · intro whole line member inside
      obtain ⟨behind, after, -, cut, -⟩ := split?_eq_some_iff.1 whole
      rw [String.toList_ofList] at cut
      -- A mark on a line would stand in the block, which ends before the first mark.
      refine Text.not_infix_of_cut? (by decide) cut ?_
      rw [← List.append_nil (ofLines lines), infix_block_iff]
      exact .inl ⟨line, member, inside⟩
    · intro unmarked
      have kept : ('\n' :: body).dropWhile isLineBreak = body := by
        rw [List.dropWhile_cons_of_pos (by rfl)]
        cases body with
        | nil => rfl
        | cons character rest =>
            exact List.dropWhile_cons_of_neg (by simpa using starts)
      have split := @split?_of_first_mark lines [] unmarked (by decide) ('\n' :: body)
      rwa [kept, List.append_nil, List.nil_append] at split
  · rintro earlier line later before after rfl unmarked cut
    obtain ⟨rfl, fresh⟩ := (Text.cut?_eq_some_iff (by decide)).1 cut
    rw [← split?_of_first_mark unmarked fresh, document, Text.ofLines_append, Text.ofLines_cons]
    simp

/-- The front matter of a report is its lines, until a line holds a mark. -/
theorem front_matter_of_report :
    split? (document ["name: a".toList, "# --".toList] "Go.\n---\n".toList) =
        some ("\nname: a\n# --\n", "Go.\n---\n") ∧
      split? (document ["name: a".toList, "next: b---c.md".toList, "d: e".toList] "Go.".toList) =
        some ("\nname: a\nnext: b", "c.md\nd: e\n---\nGo.") := by
  constructor
  · have whole := (@front_matter_is_lines_iff_unmarked ["name: a".toList, "# --".toList]
      "Go.\n---\n".toList (by decide)).1.2 (by decide +kernel)
    exact whole.trans (by decide +kernel)
  · have inside := (@front_matter_is_lines_iff_unmarked _ "Go.".toList (by decide)).2
      ["name: a".toList] "next: b---c.md".toList ["d: e".toList] "next: b".toList "c.md".toList rfl
      (by decide +kernel) (by decide +kernel)
    exact inside.trans (by decide +kernel)

/-- Front matter does not always last until a line that is the mark. -/
theorem front_matter_ends_inside_line :
    ¬ ∀ (lines : List (List Char)) (body : List Char),
      (∀ line ∈ lines, '\n' ∉ line ∧ line ≠ mark) → body.head?.any isLineBreak = false →
      split? (document lines body) =
        some (String.ofList ('\n' :: ofLines lines), String.ofList body) := by
  intro whole
  have split := whole ["title: a---b".toList] "Go.".toList (by decide) (by decide)
  exact absurd split (by decide)

end WorkflowBundle.FrontMatter
