/-
This file says which characters the written numbers have, digits and the marks of the notation, and
that different integers are written differently.
-/

import WorkflowBundle.Decimal.Style

namespace WorkflowBundle.Decimal

variable {character : Char}

theorem isDigit_of_mem_digitsOf {number : Nat} (member : character ∈ digitsOf number) :
    character.isDigit = true :=
  Nat.isDigit_of_mem_toDigits (by decide) (by decide) member

theorem isDigit_of_mem_toString_nat {number : Nat}
    (member : character ∈ (toString number).toList) : character.isDigit = true := by
  rw [Nat.toString_eq_ofList_toDigits, String.toList_ofList] at member
  exact isDigit_of_mem_digitsOf member

theorem mem_toString_int {number : Int} (member : character ∈ (toString number).toList) :
    character.isDigit = true ∨ character = '-' := by
  cases number with
  | ofNat number => exact .inl (@isDigit_of_mem_toString_nat _ number member)
  | negSucc number =>
      have written : (toString (Int.negSucc number)).toList =
          '-' :: (toString (number + 1)).toList := by
        change ("-" ++ toString (number + 1)).toList = _
        rw [String.toList_append]
        rfl
      rw [written] at member
      rcases List.mem_cons.1 member with sign | digit
      · exact .inr sign
      · exact .inl (isDigit_of_mem_toString_nat digit)

theorem toString_nat_injective : Function.Injective (toString : Nat → String) := by
  intro first second same
  rw [Nat.toString_eq_ofList_toDigits, Nat.toString_eq_ofList_toDigits, String.ofList_inj] at same
  rw [← @Nat.ofDigitChars_ten_toDigits first, same, Nat.ofDigitChars_ten_toDigits]

theorem toString_int_injective : Function.Injective (toString : Int → String) := by
  have signed (natural number : Nat) : toString natural ≠ "-" ++ toString (number + 1) := by
    intro same
    have sign : '-' ∈ (toString natural).toList := by
      rw [same, String.toList_append]
      exact List.mem_append_left _ (List.mem_singleton_self _)
    exact absurd (isDigit_of_mem_toString_nat sign) (by decide)
  intro first second same
  cases first with
  | ofNat first =>
      cases second with
      | ofNat second => exact congrArg Int.ofNat (toString_nat_injective same)
      | negSucc second => exact absurd same (signed first second)
  | negSucc first =>
      cases second with
      | ofNat second => exact absurd same.symm (signed second first)
      | negSucc second =>
          have digits : toString (first + 1) = toString (second + 1) :=
            (String.append_right_inj "-").1 same
          exact congrArg Int.negSucc (Nat.succ.inj (toString_nat_injective digits))

/-- A decimal is written in full with digits, a point and the end of whole numbers. -/
theorem mem_writePositional {wholeEnd : String} {decimal : Decimal}
    (member : character ∈ (writePositional wholeEnd decimal).toList) :
    character.isDigit = true ∨ character = '.' ∨ character ∈ wholeEnd.toList := by
  have padding {count : Nat} (member : character ∈ List.replicate count '0') :
      character.isDigit = true := by
    rw [List.eq_of_mem_replicate member]
    rfl
  have padded {count : Nat}
      (member : character ∈ List.replicate count '0' ++ digitsOf decimal.significand) :
      character.isDigit = true :=
    (List.mem_append.1 member).elim padding isDigit_of_mem_digitsOf
  simp only [writePositional] at member
  split at member
  · simp only [String.toList_append, String.toList_ofList, List.mem_append] at member
    rcases member with (digit | zero) | ending
    · exact .inl (isDigit_of_mem_digitsOf digit)
    · exact .inl (padding zero)
    · exact .inr (.inr ending)
  · simp only [String.toList_append, String.toList_ofList, List.mem_append] at member
    rcases member with (before | point) | after
    · exact .inl (padded (List.mem_of_mem_take before))
    · exact .inr (.inl (List.mem_singleton.1 point))
    · exact .inl (padded (List.mem_of_mem_drop after))

/-- A decimal is written with an exponent with digits, a point, the mark of negative exponents and
that of positive ones. -/
theorem mem_writeScientific {mark : String} {decimal : Decimal}
    (member : character ∈ (writeScientific mark decimal).toList) :
    character.isDigit = true ∨ character ∈ ['.', 'e', '-'] ∨ character ∈ mark.toList := by
  have first (member : character ∈ (digitsOf decimal.significand).take 1) :=
    isDigit_of_mem_digitsOf (List.mem_of_mem_take member)
  have fraction (member : character ∈ (digitsOf decimal.significand).drop 1) :=
    isDigit_of_mem_digitsOf (List.mem_of_mem_drop member)
  have exponent (member : character ∈ (toString (scientificExponent decimal).natAbs).toList) :=
    isDigit_of_mem_toString_nat member
  simp only [writeScientific] at member
  split at member <;> split at member <;>
    simp only [String.toList_append, String.toList_ofList, List.mem_append] at member <;> grind

/-- A number is written with digits, the marks of both notations, and the texts of its style. -/
theorem Style.mem_write {style : Style} {number : Binary64}
    (member : character ∈ (style.write number).toList) :
    character.isDigit = true ∨ character ∈ ['.', 'e', '-'] ∨
      ∃ text ∈ [style.wholeEnd, style.positiveExponent, style.nan, style.infinite,
        style.negativeInfinite], character ∈ text.toList := by
  cases number with
  | nan => exact .inr (.inr ⟨style.nan, by simp, member⟩)
  | infinite negative =>
      cases negative with
      | false => exact .inr (.inr ⟨style.infinite, by simp, member⟩)
      | true => exact .inr (.inr ⟨style.negativeInfinite, by simp, member⟩)
  | finite negative mantissa exponent =>
      have positional (member : character ∈
          (writePositional style.wholeEnd (shortest style.tie mantissa exponent)).toList) :=
        mem_writePositional member
      have scientific (member : character ∈
          (writeScientific style.positiveExponent (shortest style.tie mantissa exponent)).toList) :=
        mem_writeScientific member
      simp only [write] at member
      split at member <;> split at member <;> grind [String.toList_append]

end WorkflowBundle.Decimal
