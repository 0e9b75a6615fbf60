/-
This file says which beginning of a text a budget keeps, and which lines it drops.
-/

import Mathlib.Data.List.Infix
import WorkflowBundle.Bundle.Budget
import WorkflowBundle.Proofs.Text.Trimming

namespace WorkflowBundle.Bundle

/-- A text starts with lines that are not empty when a line feed follows them. -/
def StartsWithLines (text lines : List Char) : Prop :=
  lines ≠ [] ∧ lines ++ ['\n'] <+: text

/-- Lines at the start of a text are the most that fit a number of characters when all others that
fit are shorter. -/
structure IsLongestFitting (text : List Char) (size : Nat) (lines : List Char) : Prop where
  starts : StartsWithLines text lines
  fits : lines.length ≤ size
  longest : ∀ other, StartsWithLines text other → other.length ≤ size →
    other.length ≤ lines.length

theorem StartsWithLines.isPrefix {text lines : List Char} (starts : StartsWithLines text lines) :
    lines <+: text :=
  (List.prefix_append lines ['\n']).trans starts.2

/-- Lines end before the last line feed, or at it. -/
theorem StartsWithLines.prefix_of_last {front last lines : List Char} (single : '\n' ∉ last)
    (starts : StartsWithLines (front ++ '\n' :: last) lines) : lines <+: front := by
  rcases Nat.lt_or_ge front.length lines.length with long | short
  · -- Longer lines would have their line feed behind the last one.
    obtain ⟨more, rfl⟩ :=
      List.prefix_of_prefix_length_le (List.prefix_append _ _) starts.isPrefix long.le
    have behind := starts.2
    rw [List.append_assoc, List.prefix_append_right_inj] at behind
    cases more with
    | nil => simp at long
    | cons first more =>
        have inside := (List.cons_prefix_cons.1 behind).2
        exact absurd (inside.subset (by simp)) single
  · exact List.prefix_of_prefix_length_le starts.isPrefix (List.prefix_append _ _) short

/-- A text has one line, or a line feed stands before its last line. -/
theorem single_or_exists_last (text : List Char) :
    '\n' ∉ text ∨ ∃ front last, text = front ++ '\n' :: last ∧ '\n' ∉ last := by
  by_cases broken : '\n' ∈ text
  · obtain ⟨last, front, split, single⟩ :=
      List.eq_append_cons_of_mem (List.mem_reverse.2 broken)
    refine .inr ⟨front.reverse, last.reverse, ?_, by simpa using single⟩
    simpa using congrArg List.reverse split
  · exact .inl broken

/-- A text has only one last line feed. -/
theorem eq_of_last_eq {front last other behind : List Char} (single : '\n' ∉ last)
    (alone : '\n' ∉ behind) (same : front ++ '\n' :: last = other ++ '\n' :: behind) :
    front = other ∧ last = behind := by
  rcases List.append_eq_append_iff.1 same with ⟨more, rfl, rest⟩ | ⟨more, rfl, rest⟩
  · cases more with
    | nil => exact ⟨(List.append_nil front).symm, (List.cons.inj rest).2⟩
    | cons first more =>
        obtain ⟨-, rfl⟩ := List.cons.inj rest
        simp at single
  · cases more with
    | nil => exact ⟨List.append_nil other, (List.cons.inj rest).2.symm⟩
    | cons first more =>
        obtain ⟨-, rfl⟩ := List.cons.inj rest
        simp at alone

/-- A text of one line is not cut. -/
theorem cutAtLine_of_single {head : List Char} (single : '\n' ∉ head) : cutAtLine head = head := by
  have nothing : head.reverse.dropWhile (· != '\n') = [] := by
    rw [List.dropWhile_eq_nil_iff]
    intro character member
    have apart : character ≠ '\n' := fun same => single (same ▸ List.mem_reverse.1 member)
    simp [apart]
  rw [cutAtLine, nothing]
  rfl

/-- A text is cut before its last line feed, if something stands before that. -/
theorem cutAtLine_of_last {front last : List Char} (single : '\n' ∉ last) :
    cutAtLine (front ++ '\n' :: last) = if front = [] then '\n' :: last else front := by
  have passed : ∀ character ∈ last.reverse, (character != '\n') = true := by
    intro character member
    have apart : character ≠ '\n' := fun same => single (same ▸ List.mem_reverse.1 member)
    simp [apart]
  have found : (front ++ '\n' :: last).reverse.dropWhile (· != '\n') = '\n' :: front.reverse := by
    rw [List.reverse_append, List.reverse_cons, List.append_assoc,
      List.dropWhile_append_of_pos passed]
    rfl
  rw [cutAtLine, found, List.drop_one, List.tail_cons]
  rcases List.eq_nil_or_concat front with rfl | ⟨before, character, rfl⟩
  · rfl
  · simp

/-- A text without lines at its start is not cut, and any other is cut behind the most of them. -/
theorem cutAtLine_cases (head : List Char) :
    (∀ lines, ¬ StartsWithLines head lines) ∧ cutAtLine head = head ∨
      StartsWithLines head (cutAtLine head) ∧
        ∀ lines, StartsWithLines head lines → lines <+: cutAtLine head := by
  rcases single_or_exists_last head with single | ⟨front, last, rfl, single⟩
  · refine .inl ⟨fun lines starts => single ?_, cutAtLine_of_single single⟩
    exact starts.2.subset (by simp)
  · rw [cutAtLine_of_last single]
    split
    · rename_i empty
      subst empty
      refine .inl ⟨fun lines starts => starts.1 ?_, rfl⟩
      exact List.prefix_nil.1 (starts.prefix_of_last single)
    · rename_i written
      refine .inr ⟨⟨written, ?_⟩, fun lines starts => starts.prefix_of_last single⟩
      exact (List.prefix_append_right_inj front).2 (List.cons_prefix_cons.2 ⟨rfl, List.nil_prefix⟩)

/-- What is cut off at a line keeps the order of beginnings. -/
theorem cutAtLine_isPrefix_of_longer {first second : List Char} (starts : first <+: second) :
    cutAtLine first <+: cutAtLine second := by
  rcases cutAtLine_cases first with ⟨unbroken, whole⟩ | ⟨lines, -⟩
  · rw [whole]
    rcases cutAtLine_cases second with ⟨-, same⟩ | ⟨further, -⟩
    · rwa [same]
    · -- The second text is cut behind the first one, where this has no lines.
      refine List.prefix_of_prefix_length_le starts further.isPrefix (Nat.le_of_not_lt ?_)
      intro short
      refine unbroken _ ⟨further.1, List.prefix_of_prefix_length_le further.2 starts ?_⟩
      rw [List.length_append]
      exact short
  · have further : StartsWithLines second (cutAtLine first) := ⟨lines.1, lines.2.trans starts⟩
    rcases cutAtLine_cases second with ⟨unbroken, -⟩ | ⟨-, most⟩
    · exact absurd further (unbroken _)
    · exact most _ further

/-- A kept part stands before a mark on a line of its own, and the mark stands alone where nothing
is kept. -/
def marked (kept : List Char) : String :=
  if kept = [] then truncationMark else String.ofList kept ++ "\n" ++ truncationMark

/-- The text that a budget keeps is the whole text or its kept part. -/
def keptText (text : String) (budget : Nat) : List Char :=
  if text.length < 4 * (budget + 1) then text.toList else keptPart text budget

/-- The estimate stays within a budget as long as no further token is complete. -/
theorem estimateTokens_le_iff {text : String} {budget : Nat} :
    estimateTokens text ≤ budget ↔ text.length < 4 * (budget + 1) := by
  rw [estimateTokens, charactersPerToken]
  omega

theorem truncate_eq (text : String) (budget : Nat) :
    truncate text budget =
      if text.length < 4 * (budget + 1) then text else marked (keptPart text budget) := by
  simp only [truncate, estimateTokens_le_iff]
  split
  · rfl
  · cases keptPart text budget with
    | nil => rfl
    | cons character kept => simp [marked]

/-- The kept part comes from the first characters of a text. -/
theorem keptPart_isPrefix_take (text : String) (budget : Nat) :
    keptPart text budget <+: text.toList.take (4 * budget) := by
  rw [keptPart, charactersPerToken, Nat.mul_comm]
  refine (Text.trimEnd_isPrefix _).trans ?_
  rcases cutAtLine_cases (text.toList.take (4 * budget)) with ⟨-, whole⟩ | ⟨lines, -⟩
  · rw [whole]
  · exact lines.isPrefix

/-- A larger budget keeps what a smaller one keeps. -/
theorem keptText_prefix_of_le (text : String) {first second : Nat} (less : first ≤ second) :
    keptText text first <+: keptText text second := by
  have beginning (budget : Nat) : keptText text budget <+: text.toList := by
    rw [keptText]
    split
    · exact List.prefix_rfl
    · exact (keptPart_isPrefix_take text budget).trans (List.take_prefix _ _)
  by_cases within : text.length < 4 * (second + 1)
  · rw [keptText.eq_def text second, if_pos within]
    exact beginning first
  · have beyond : ¬ text.length < 4 * (first + 1) := by omega
    rw [keptText, keptText, if_neg beyond, if_neg within, keptPart, keptPart]
    refine Text.trimEnd_prefix_of_prefix (cutAtLine_isPrefix_of_longer ?_)
    exact List.take_prefix_take_left (Nat.mul_le_mul_right _ less)

/-- A text is unchanged when it has fewer characters than one token beyond the budget. Any other
text becomes its kept part, with the mark on a line behind it or alone, and a kept part is a
beginning of the text within the budget that does not end with a blank. A larger budget keeps at
least the same beginning. -/
theorem truncation_keeps_growing_beginning (text : String) :
    (∀ budget, truncate text budget =
      if text.length < 4 * (budget + 1) then text else marked (keptPart text budget)) ∧
    (∀ budget, keptPart text budget <+: text.toList ∧
      (keptPart text budget).length ≤ 4 * budget ∧
      ∀ last ∈ (keptPart text budget).getLast?, Text.isBlank last = false) ∧
    ∀ first second, first ≤ second → keptText text first <+: keptText text second := by
  refine ⟨truncate_eq text, fun budget => ⟨?_, ?_, ?_⟩, fun _ _ => keptText_prefix_of_le text⟩
  · exact (keptPart_isPrefix_take text budget).trans (List.take_prefix _ _)
  · exact (keptPart_isPrefix_take text budget).length_le.trans (List.length_take_le _ _)
  · exact Text.isBlank_getLast?_trimEnd _

/-- Lines end at a limit when they have as many characters and their last line, which is not blank,
comes behind others. -/
def EndsAtLimit (size : Nat) (lines : List Char) : Prop :=
  lines.length = size ∧ ∃ front last, lines = front ++ '\n' :: last ∧ front ≠ [] ∧ '\n' ∉ last ∧
    ∃ character ∈ last, Text.isBlank character = false

section

variable {text : List Char} {size : Nat}

/-- Lines below a limit end inside the first characters of a text. -/
theorem startsWithLines_take_iff {lines : List Char} :
    StartsWithLines (text.take size) lines ↔ StartsWithLines text lines ∧ lines.length < size := by
  rw [StartsWithLines, StartsWithLines, List.prefix_take_iff, List.length_append, and_assoc]
  rfl

/-- Lines that reach a limit are the first characters of a text. -/
theorem eq_take_of_startsWithLines {lines : List Char} (starts : StartsWithLines text lines)
    (full : lines.length = size) : lines = text.take size := by
  rw [← full]
  exact List.prefix_iff_eq_take.1 starts.isPrefix

/-- Lines that reach a limit are cut behind the line before their last one. -/
theorem trimEnd_cutAtLine_eq_iff {lines : List Char} (full : lines.length = size) :
    Text.trimEnd (cutAtLine lines) = Text.trimEnd lines ↔ ¬ EndsAtLimit size lines := by
  rcases single_or_exists_last lines with single | ⟨front, last, rfl, single⟩
  · refine iff_of_true (by rw [cutAtLine_of_single single]) ?_
    rintro ⟨-, front, last, rfl, -⟩
    simp at single
  · rw [cutAtLine_of_last single]
    split
    · rename_i empty
      subst empty
      refine iff_of_true rfl ?_
      rintro ⟨-, other, behind, same, written, -⟩
      have starts : StartsWithLines ([] ++ '\n' :: last) other := ⟨written, by simp [same]⟩
      exact written (List.prefix_nil.1 (starts.prefix_of_last single))
    · rename_i written
      rw [eq_comm, Text.trimEnd_append_eq_iff, List.forall_mem_cons]
      constructor
      · rintro ⟨-, blank⟩ ⟨-, other, behind, same, -, alone, character, member, solid⟩
        obtain ⟨-, rfl⟩ := eq_of_last_eq single alone same
        rw [blank character member] at solid
        nomatch solid
      · intro inside
        refine ⟨rfl, fun character member => ?_⟩
        by_contra solid
        exact inside ⟨full, front, last, rfl, written, single, character, member,
          Bool.eq_false_iff.2 solid⟩

end

/-- Where some lines fit the budget of a text that is cut, the kept part is the most of them without
their blank end, unless these end exactly at the limit with a last line behind others. Where none
fit, the text is cut inside its first line. -/
theorem longest_lines_are_kept_iff {text : String} {budget : Nat}
    (beyond : 4 * (budget + 1) ≤ text.length) :
    truncate text budget = marked (keptPart text budget) ∧
    ((∃ lines, StartsWithLines text.toList lines ∧ lines.length ≤ 4 * budget) →
      ∃ lines, IsLongestFitting text.toList (4 * budget) lines ∧
        (keptPart text budget = Text.trimEnd lines ↔ ¬ EndsAtLimit (4 * budget) lines)) ∧
    ((∀ lines, StartsWithLines text.toList lines → 4 * budget < lines.length) →
      keptPart text budget = Text.trimEnd (text.toList.take (4 * budget))) := by
  have kept : keptPart text budget =
      Text.trimEnd (cutAtLine (text.toList.take (4 * budget))) := by
    rw [keptPart, charactersPerToken, Nat.mul_comm]
  rw [truncate_eq, if_neg (Nat.not_lt.2 beyond), kept]
  refine ⟨rfl, ?_, ?_⟩
  · rintro ⟨some, starts, fits⟩
    by_cases reached : StartsWithLines text.toList (text.toList.take (4 * budget))
    · -- The first characters end before a line feed, where the cut does not look for one.
      have full : (text.toList.take (4 * budget)).length = 4 * budget := by
        rw [List.length_take, String.length_toList]
        omega
      exact ⟨_, ⟨reached, full.le, fun other _ within => within.trans full.ge⟩,
        trimEnd_cutAtLine_eq_iff full⟩
    · have below {lines : List Char} (starts : StartsWithLines text.toList lines)
          (fits : lines.length ≤ 4 * budget) :
          StartsWithLines (text.toList.take (4 * budget)) lines := by
        refine startsWithLines_take_iff.2 ⟨starts, lt_of_le_of_ne fits fun full => reached ?_⟩
        rwa [← eq_take_of_startsWithLines starts full]
      rcases cutAtLine_cases (text.toList.take (4 * budget)) with ⟨unbroken, -⟩ | ⟨cut, most⟩
      · exact absurd (below starts fits) (unbroken some)
      · obtain ⟨whole, short⟩ := startsWithLines_take_iff.1 cut
        have longest (other : List Char) (starts : StartsWithLines text.toList other)
            (fits : other.length ≤ 4 * budget) := (most _ (below starts fits)).length_le
        exact ⟨_, ⟨whole, short.le, longest⟩, iff_of_true rfl fun full => short.ne full.1⟩
  · intro long
    rcases cutAtLine_cases (text.toList.take (4 * budget)) with ⟨-, whole⟩ | ⟨cut, -⟩
    · rw [whole]
    · obtain ⟨whole, short⟩ := startsWithLines_take_iff.1 cut
      exact absurd (long _ whole) short.not_gt

/-- Two lines below the limit are kept. -/
theorem lines_below_limit_are_kept :
    IsLongestFitting "red\nsea\ngreen".toList 8 "red\nsea".toList ∧
      truncate "red\nsea\ngreen" 2 = marked "red\nsea".toList := by
  obtain ⟨cut, kept, -⟩ :=
    @longest_lines_are_kept_iff "red\nsea\ngreen" 2 (by decide)
  have fitting : StartsWithLines "red\nsea\ngreen".toList "red\nsea".toList :=
    ⟨by decide, by decide⟩
  obtain ⟨lines, longest, whole⟩ := kept ⟨_, fitting, by decide⟩
  -- Eight characters do not end before a line feed, so that the most are the seven of two lines.
  have seven : lines.length = 7 := by
    refine Nat.le_antisymm (Nat.le_of_lt_succ (lt_of_le_of_ne longest.fits fun full => ?_))
      (longest.longest _ fitting (by decide))
    have eight := longest.starts.2
    rw [eq_take_of_startsWithLines longest.starts full] at eight
    exact absurd eight (by decide)
  have same : lines = "red\nsea".toList := eq_take_of_startsWithLines longest.starts seven
  have below : ¬ EndsAtLimit 8 lines := fun ends => absurd (seven.symm.trans ends.1) (by decide)
  rw [cut, whole.2 below, same]
  exact ⟨same ▸ longest, by decide⟩

/-- A line that the budget has room for is not always kept: a budget that ends exactly with a line
does not reach the line feed behind it. -/
theorem line_at_limit_is_dropped :
    ¬ ∀ (text : String) (budget : Nat) (lines : List Char), 4 * (budget + 1) ≤ text.length →
      IsLongestFitting text.toList (4 * budget) lines →
      keptPart text budget = Text.trimEnd lines := by
  intro kept
  have longest : IsLongestFitting "red\nblue\ngreen".toList (4 * 2) "red\nblue".toList :=
    ⟨⟨by decide, by decide⟩, by decide, fun _ _ fits => fits⟩
  exact absurd (kept "red\nblue\ngreen" 2 _ (by decide) longest) (by decide)

end WorkflowBundle.Bundle
