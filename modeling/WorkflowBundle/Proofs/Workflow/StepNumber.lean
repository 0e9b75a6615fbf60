/-
This file compares the order of step files with that of the numbers in their names.
-/

import Mathlib.Data.List.TakeWhile
import Mathlib.Order.WithBot
import WorkflowBundle.Proofs.Workflow.StepOrder

namespace WorkflowBundle.StepName

/-- The text behind the mark is empty where the mark is missing. -/
def behindMark (name : String) : List Char :=
  if mark.isPrefixOf name.toList then name.toList.drop mark.length else []

/-- A run of digits follows the mark. -/
def digits (isDigit : Char → Bool) (name : String) : List Char :=
  (behindMark name).takeWhile isDigit

/-- The rest of a name follows its digits. -/
def behindDigits (isDigit : Char → Bool) (name : String) : List Char :=
  (behindMark name).dropWhile isDigit

/-- The letter of a name is a lower-case ASCII letter right behind its digits, or absent. -/
def letter (isDigit : Char → Bool) (name : String) : String :=
  if digits isDigit name = [] then ""
  else String.ofList ((behindDigits isDigit name).head?.filter Char.isLower).toList

/-- The number of a name is the value of its ASCII digits. A name without digits comes behind every
number. -/
def number (name : String) : WithTop Nat :=
  if digits Char.isDigit name = [] then ⊤
  else WithTop.some (Nat.ofDigitChars 10 (digits Char.isDigit name) 0)

/-- In natural order names are compared by number, then by letter, then as texts. -/
def naturalRank (name : String) : WithTop Nat ×ₗ String ×ₗ String :=
  toLex (number name, toLex (letter Char.isDigit name, name))

/-- As texts names are compared by the letter behind digits of any script first. -/
def textRank (name : String) : String ×ₗ String :=
  toLex (letter Text.isDecimalDigit name, name)

/-- A number counts if it is below the greatest one of 64 bits and no digit of another script goes on
behind it. -/
def Counts (name : String) : Prop :=
  number name < WithTop.some unnumbered ∧
    (behindDigits Char.isDigit name).head?.any Text.isDecimalDigit = false

section

variable {name : String}

/-- A number that counts is the value of some digits. -/
theorem counts_iff :
    Counts name ↔ digits Char.isDigit name ≠ [] ∧
      Nat.ofDigitChars 10 (digits Char.isDigit name) 0 < unnumbered ∧
      (behindDigits Char.isDigit name).head?.any Text.isDecimalDigit = false := by
  rw [Counts, number]
  by_cases none : digits Char.isDigit name = []
  · simp [none]
  · rw [if_neg none, WithTop.coe_lt_coe]
    exact (and_iff_right none).symm

instance (name : String) : Decidable (Counts name) :=
  decidable_of_iff _ counts_iff.symm

/-- In base ten exactly the ASCII digits have a value. -/
theorem digitValue?_ten (character : Char) :
    Numeral.digitValue? 10 character =
      if character.isDigit then some (character.toNat - '0'.toNat) else none := by
  rw [Numeral.digitValue?]
  split
  · rename_i digit
    simp only [Char.isDigit, Bool.and_eq_true, decide_eq_true_eq] at digit
    have upper : character.toNat ≤ 57 := UInt32.le_iff_toNat_le.1 digit.2
    have zero : '0'.toNat = 48 := rfl
    exact if_pos (by omega)
  · refine if_neg ?_
    split
    · omega
    · split <;> omega

/-- ASCII digits are read as the number that they write. -/
theorem naturalFrom?_of_digits {text : List Char} (digits : ∀ character ∈ text, character.isDigit)
    (value : Nat) : Numeral.naturalFrom? 10 value text = some (Nat.ofDigitChars 10 text value) := by
  induction text generalizing value with
  | nil => rfl
  | cons character rest inductionHypothesis =>
      obtain ⟨here, behind⟩ := List.forall_mem_cons.1 digits
      rw [Numeral.naturalFrom?, digitValue?_ten, if_pos here, Option.bind_some,
        inductionHypothesis behind, Nat.mul_comm]
      rfl

/-- A text with another character is no number. -/
theorem naturalFrom?_eq_none {text : List Char} {character : Char} (member : character ∈ text)
    (other : character.isDigit = false) (value : Nat) :
    Numeral.naturalFrom? 10 value text = none := by
  induction text generalizing value with
  | nil => nomatch member
  | cons first rest inductionHypothesis =>
      rw [Numeral.naturalFrom?, digitValue?_ten]
      rcases List.mem_cons.1 member with rfl | behind
      · rw [if_neg (by simp [other]), Option.bind_none]
      · split
        · exact inductionHypothesis behind _
        · rfl

/-- The letter of a rest is its first character, if it is one. -/
theorem letterOf_eq (rest : List Char) :
    letterOf rest = String.ofList (rest.head?.filter Char.isLower).toList := by
  cases rest with
  | nil => rfl
  | cons character rest =>
      have lower : (decide ('a' ≤ character) && decide (character ≤ 'z')) = character.isLower := rfl
      rw [letterOf, List.take_succ_cons, List.take_zero, List.head?_cons, Option.filter_some,
        List.filter_cons, lower]
      split <;> rfl

/-- The key of a name comes from its digits of any script. -/
theorem key_eq (name : String) :
    key name = if digits Text.isDecimalDigit name = [] then ⟨unnumbered, "", name⟩
      else ⟨numberOf (digits Text.isDecimalDigit name), letter Text.isDecimalDigit name, name⟩ := by
  rw [key]
  by_cases marked : mark.isPrefixOf name.toList = true
  · have behind : behindMark name = name.toList.drop mark.length := if_pos marked
    rw [letter, behindDigits, digits, behind]
    by_cases none : (name.toList.drop mark.length).takeWhile Text.isDecimalDigit = []
    · simp [none]
    · have rest : name.toList.drop (mark.length +
          ((name.toList.drop mark.length).takeWhile Text.isDecimalDigit).length) =
          (name.toList.drop mark.length).dropWhile Text.isDecimalDigit := by
        rw [← List.drop_drop]
        nth_rewrite 2 [← @List.takeWhile_append_dropWhile _ Text.isDecimalDigit
          (name.toList.drop mark.length)]
        exact List.drop_left
      rw [if_neg none, if_neg none, if_pos (by simp [marked, none]), letterOf_eq, rest]
  · have behind : digits Text.isDecimalDigit name = [] := by
      rw [digits, behindMark, if_neg marked]
      rfl
    rw [if_pos behind, if_neg (by simp [marked])]

/-- The letter of a key is that behind the digits of any script. -/
theorem letter_key (name : String) : (key name).letter = letter Text.isDecimalDigit name := by
  rw [key_eq]
  split
  · rename_i none
    rw [letter, if_pos none]
  · rfl

/-- The digits of any script are the ASCII digits and those that go on behind them. -/
theorem digits_isDecimalDigit (name : String) :
    digits Text.isDecimalDigit name = digits Char.isDigit name ++
      (behindDigits Char.isDigit name).takeWhile Text.isDecimalDigit := by
  have decimal : ∀ character ∈ digits Char.isDigit name, Text.isDecimalDigit character = true :=
    fun character member => Text.isDecimalDigit_of_isDigit (List.mem_takeWhile_imp member)
  rw [digits, ← @List.takeWhile_append_dropWhile _ Char.isDigit (behindMark name)]
  exact List.takeWhile_append_of_pos decimal

/-- Where the digits of two kinds are the same, so are the letters behind them. -/
theorem letter_eq_of_digits_eq {first second : Char → Bool}
    (same : digits first name = digits second name) : letter first name = letter second name := by
  have whole (isDigit : Char → Bool) : digits isDigit name ++ behindDigits isDigit name =
      behindMark name :=
    List.takeWhile_append_dropWhile
  have parts : digits second name ++ behindDigits first name =
      digits second name ++ behindDigits second name := by
    rw [← same, whole, same, whole]
  rw [letter, letter, same, List.append_cancel_left parts]

/-- Where no digit of another script goes on behind the ASCII digits, they are all digits. -/
theorem digits_eq_of_not_any
    (apart : (behindDigits Char.isDigit name).head?.any Text.isDecimalDigit = false) :
    digits Text.isDecimalDigit name = digits Char.isDigit name := by
  have none : (behindDigits Char.isDigit name).takeWhile Text.isDecimalDigit = [] := by
    cases behind : behindDigits Char.isDigit name with
    | nil => rfl
    | cons character rest =>
        rw [behind, List.head?_cons, Option.any_some] at apart
        exact List.takeWhile_cons_of_neg (Bool.eq_false_iff.1 apart)
  rw [digits_isDecimalDigit, none, List.append_nil]

/-- ASCII digits are a step number up to the greatest one of 64 bits. -/
theorem numberOf_of_digits {text : List Char} (written : text ≠ [])
    (digits : ∀ character ∈ text, character.isDigit) :
    numberOf text = min (Nat.ofDigitChars 10 text 0) unnumbered := by
  rw [numberOf, Numeral.natural?, if_neg (by simpa using written), naturalFrom?_of_digits digits]
  exact (min_def _ _).symm

/-- Digits with one of another script have the greatest number. -/
theorem numberOf_of_other {text : List Char} {character : Char} (member : character ∈ text)
    (other : character.isDigit = false) : numberOf text = unnumbered := by
  have written : text ≠ [] := List.ne_nil_of_mem member
  rw [numberOf, Numeral.natural?, if_neg (by simpa using written),
    naturalFrom?_eq_none member other]

/-- A number that counts is that of the key, with the letter behind it. -/
theorem key_of_counts (counts : Counts name) :
    number name = WithTop.some (key name).number ∧ (key name).number < unnumbered ∧
      (key name).letter = letter Char.isDigit name := by
  obtain ⟨written, below, apart⟩ := counts_iff.1 counts
  have same := digits_eq_of_not_any apart
  have value : (key name).number = Nat.ofDigitChars 10 (digits Char.isDigit name) 0 := by
    rw [key_eq, same, if_neg written]
    dsimp only
    rw [numberOf_of_digits written fun character => List.mem_takeWhile_imp]
    exact min_eq_left below.le
  rw [number, if_neg written, value, letter_key, letter_eq_of_digits_eq same]
  exact ⟨rfl, below, rfl⟩

/-- Digits that go on behind the ASCII digits start with one of another script. -/
theorem exists_other_digit
    (further : (behindDigits Char.isDigit name).head?.any Text.isDecimalDigit = true) :
    ∃ character ∈ digits Text.isDecimalDigit name, character.isDigit = false := by
  cases behind : behindDigits Char.isDigit name with
  | nil =>
      rw [behind] at further
      nomatch further
  | cons character rest =>
      have other := List.head?_dropWhile_not Char.isDigit (behindMark name)
      rw [← behindDigits, behind, List.head?_cons] at other
      rw [behind, List.head?_cons, Option.any_some] at further
      refine ⟨character, ?_, other⟩
      rw [digits_isDecimalDigit, behind, List.takeWhile_cons_of_pos further]
      exact List.mem_append_right _ List.mem_cons_self

/-- Names whose number does not count share the greatest number. -/
theorem number_key_of_not_counts (excluded : ¬ Counts name) : (key name).number = unnumbered := by
  rw [key_eq]
  split
  · rfl
  · rename_i written
    dsimp only
    cases further : (behindDigits Char.isDigit name).head?.any Text.isDecimalDigit with
    | true =>
        obtain ⟨character, member, other⟩ := exists_other_digit further
        exact numberOf_of_other member other
    | false =>
        rw [digits_eq_of_not_any further] at written ⊢
        rw [numberOf_of_digits written fun character => List.mem_takeWhile_imp]
        apply min_eq_right
        by_contra below
        exact excluded (counts_iff.2 ⟨written, not_le.1 below, further⟩)

/-- Keys are in natural order where the first number counts, and in that of texts where both do not. -/
theorem rank_key_lt_iff (first second : String) :
    (key first).rank < (key second).rank ↔
      Counts first ∧ (Counts second → naturalRank first < naturalRank second) ∨
        ¬ Counts first ∧ ¬ Counts second ∧ textRank first < textRank second := by
  rw [Key.rank, Key.rank, Prod.Lex.toLex_lt_toLex, name_key, name_key]
  by_cases firstCounts : Counts first
  · obtain ⟨firstNumber, firstBelow, firstLetter⟩ := key_of_counts firstCounts
    by_cases secondCounts : Counts second
    · obtain ⟨secondNumber, -, secondLetter⟩ := key_of_counts secondCounts
      have natural : naturalRank first < naturalRank second ↔
          (key first).number < (key second).number ∨
            (key first).number = (key second).number ∧
              toLex (letter Char.isDigit first, first) <
                toLex (letter Char.isDigit second, second) := by
        rw [naturalRank, naturalRank, firstNumber, secondNumber]
        simp only [Prod.Lex.toLex_lt_toLex, WithTop.coe_lt_coe, WithTop.coe_inj]
      simp only [firstCounts, secondCounts, true_and, true_implies, not_true, false_and, or_false]
      rw [natural, firstLetter, secondLetter]
    · have lower : (key first).number < (key second).number := by
        rwa [number_key_of_not_counts secondCounts]
      simp [firstCounts, secondCounts, lower]
  · have last := number_key_of_not_counts firstCounts
    by_cases secondCounts : Counts second
    · obtain ⟨-, secondBelow, -⟩ := key_of_counts secondCounts
      have higher : (key second).number < (key first).number := by rwa [last]
      simp [firstCounts, secondCounts, higher.not_gt, higher.ne']
    · rw [last, number_key_of_not_counts secondCounts, letter_key, letter_key]
      simp [firstCounts, secondCounts, textRank]

/-- Of two paths whose file names are in natural order the first one is sorted before the second one
exactly when its number counts, or when no number of both counts and their names are in the order of
texts as well. So names with a number that counts are in natural order, before all other names. -/
theorem sorted_in_natural_order_iff {paths : List Path} {first second : Path}
    (firstMember : first ∈ paths) (secondMember : second ∈ paths)
    (precedes : naturalRank (nameOf first) < naturalRank (nameOf second)) :
    [first, second].Sublist (sort paths) ↔
      Counts (nameOf first) ∨
        ¬ Counts (nameOf second) ∧ textRank (nameOf first) < textRank (nameOf second) := by
  have different : rankOf first ≠ rankOf second :=
    fun same => precedes.ne (congrArg naturalRank (nameOf_eq_of_rankOf_eq same))
  rw [pair_sublist_sort_iff firstMember secondMember different, rankOf, rankOf, rank_key_lt_iff]
  constructor
  · rintro (⟨counts, -⟩ | ⟨-, further⟩)
    · exact .inl counts
    · exact .inr further
  · rintro (counts | ⟨uncounted, text⟩)
    · exact .inl ⟨counts, fun _ => precedes⟩
    · by_cases counts : Counts (nameOf first)
      · exact .inl ⟨counts, fun _ => precedes⟩
      · exact .inr ⟨counts, uncounted, text⟩

/-- Leading zeros do not count, however many there are. -/
theorem padded_step_is_sorted_by_number :
    let padded : Path := ⟨"steps/step-000000000000000000000002b-x.md"⟩
    let plain : Path := ⟨"steps/step-10.md"⟩
    naturalRank (nameOf padded) < naturalRank (nameOf plain) ∧
      [padded, plain].Sublist (sort [plain, ⟨"steps/step-final.md"⟩, padded]) := by
  intro padded plain
  have precedes : naturalRank (nameOf padded) < naturalRank (nameOf plain) := by decide +kernel
  have counts : Counts (nameOf padded) := by decide +kernel
  exact ⟨precedes, (sorted_in_natural_order_iff (by simp) (by simp) precedes).2 (.inl counts)⟩

/-- A number of more than 64 bits is sorted behind a name without number and behind a greater one. -/
theorem long_number_is_sorted_as_text :
    let long : Path := ⟨"step-18446744073709551616b.md"⟩
    let longer : Path := ⟨"step-18446744073709551617a.md"⟩
    let plain : Path := ⟨"step-b.md"⟩
    let paths := [long, longer, plain]
    (naturalRank (nameOf long) < naturalRank (nameOf longer) ∧
        ¬ [long, longer].Sublist (sort paths)) ∧
      (naturalRank (nameOf long) < naturalRank (nameOf plain) ∧
        ¬ [long, plain].Sublist (sort paths)) := by
  intro long longer plain paths
  rw [pair_sublist_sort_iff (by simp [paths]) (by simp [paths]) (by decide +kernel),
    pair_sublist_sort_iff (by simp [paths]) (by simp [paths]) (by decide +kernel)]
  decide +kernel

end

end WorkflowBundle.StepName
