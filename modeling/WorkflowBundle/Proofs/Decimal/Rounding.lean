/-
This file says which natural numbers round to a large binary number: those between the middles to its
neighbours, and the middles themselves for an even mantissa.
-/

import Mathlib.Tactic.Ring
import WorkflowBundle.Decimal.Shortest

namespace WorkflowBundle

namespace Binary64

/-- A quotient goes to a whole number when it is less than a half away, or exactly a half and the
whole number is even. -/
theorem roundDiv_eq_iff {numerator denominator whole : Nat} (positive : 0 < denominator) :
    roundDiv numerator denominator = whole ↔
      if whole % 2 = 0 then
        2 * (whole * denominator) ≤ 2 * numerator + denominator ∧
          2 * numerator ≤ 2 * (whole * denominator) + denominator
      else
        2 * (whole * denominator) < 2 * numerator + denominator ∧
          2 * numerator < 2 * (whole * denominator) + denominator := by
  have division := Nat.div_add_mod' numerator denominator
  have below := Nat.mod_lt numerator positive
  rw [roundDiv]
  generalize numerator / denominator = quotient at *
  generalize numerator % denominator = remainder at *
  rcases Nat.lt_trichotomy whole quotient with less | rfl | more
  · have apart : whole * denominator + denominator ≤ quotient * denominator := by
      rw [← Nat.succ_mul]
      exact Nat.mul_le_mul_right denominator less
    split_ifs <;> omega
  · split_ifs <;> omega
  · have next : (quotient + 1) * denominator = quotient * denominator + denominator :=
      Nat.succ_mul quotient denominator
    rcases Nat.eq_or_lt_of_le (show quotient + 1 ≤ whole from more) with rfl | above
    · split_ifs <;> omega
    · have apart : (quotient + 1) * denominator + denominator ≤ whole * denominator := by
        rw [← Nat.succ_mul]
        exact Nat.mul_le_mul_right denominator above
      split_ifs <;> omega

/-- A natural number of some bits leaves its bits beyond the precision as the exponent. -/
theorem exponentOf_natural {number : Nat} (positive : number ≠ 0) :
    exponentOf number 1 = number.log2 - 52 := by
  have whole : quotientBelow number 1 number.log2 = false := by
    simp [quotientBelow, Nat.log2_self_le positive]
  have one : Nat.log2 1 = 0 := rfl
  simp only [exponentOf, one, precision, minExponent]
  rw [Int.natCast_zero, Int.sub_zero, whole]
  simp only [Bool.false_eq_true, if_false]
  omega

/-- The binary number of a natural number has the exponent that its bits leave beyond the precision,
or one more. -/
theorem exponent_of_ofInt {number mantissa : Nat} {exponent : Int} {negative : Bool}
    (positive : number ≠ 0) (rounded : ofInt number = .finite negative mantissa exponent) :
    exponent = number.log2 - 52 ∨ exponent = number.log2 - 51 := by
  rw [ofInt, ofRatio, Int.natAbs_natCast, if_neg positive] at rounded
  dsimp only at rounded
  rw [exponentOf_natural positive] at rounded
  split_ifs at rounded <;> injection rounded <;> omega

/-- A natural number of 53 bits or more is rounded to a multiple of the power of two beyond the
precision. -/
theorem ofInt_natural {number exponent : Nat} (lower : 2 ^ (52 + exponent) ≤ number)
    (upper : number < 2 ^ (53 + exponent)) (finite : exponent < 971) :
    ofInt number =
      if roundDiv number (2 ^ exponent) = 2 ^ 53 then .finite false (2 ^ 52) (exponent + 1)
      else .finite false (roundDiv number (2 ^ exponent)) exponent := by
  have positive : number ≠ 0 := by
    have := Nat.two_pow_pos (52 + exponent)
    omega
  have bits : number.log2 = 52 + exponent :=
    (Nat.log2_eq_iff positive).2 ⟨lower, by rwa [Nat.add_right_comm]⟩
  have scale : exponentOf number 1 = exponent := by
    rw [exponentOf_natural positive, bits]
    omega
  have mantissa : scaledDiv number 1 exponent = roundDiv number (2 ^ exponent) := by
    simp [scaledDiv]
  have sign : decide ((number : Int) < 0) = false := by simp
  have inside : ¬ maxExponent ≤ exponent := by
    rw [maxExponent]
    omega
  rw [ofInt, sign, ofRatio, Int.natAbs_natCast, if_neg positive]
  simp only [scale, mantissa, if_neg inside, if_neg fun above => inside (Int.le_of_lt above)]
  rfl

/-- The middle between a large binary number and the one below it, counted in quarters of its unit.
Below a power of two, the unit is half as large. -/
def lowerQuarters (mantissa : Nat) : Nat :=
  if mantissa = 2 ^ 52 then 4 * mantissa - 1 else 4 * mantissa - 2

/-- A natural number rounds to a large binary number when it lies between the middles to its
neighbours. An even mantissa has the middles as well. The exponent is that of a quarter of the unit. -/
def Rounds (mantissa exponent number : Nat) : Prop :=
  if mantissa % 2 = 0 then
    lowerQuarters mantissa * 2 ^ exponent ≤ number ∧ number ≤ (4 * mantissa + 2) * 2 ^ exponent
  else lowerQuarters mantissa * 2 ^ exponent < number ∧ number < (4 * mantissa + 2) * 2 ^ exponent

section

variable {mantissa exponent number : Nat}

/-- The middles are linear in the value of a quarter of the unit. -/
theorem lowerQuarters_mul (quarter : Nat) :
    lowerQuarters mantissa * quarter =
      4 * (mantissa * quarter) - (if mantissa = 2 ^ 52 then quarter else 2 * quarter) := by
  rw [lowerQuarters]
  split_ifs
  · rw [Nat.sub_mul, Nat.mul_assoc, Nat.one_mul]
  · rw [Nat.sub_mul, Nat.mul_assoc]

/-- A number that has all bits of a binary number rounds to it when its quotient does. -/
theorem ofInt_eq_iff_of_le (lower : 2 ^ (52 + (exponent + 2)) ≤ number)
    (upper : number < 2 ^ (53 + (exponent + 2))) (normal : mantissa < 2 ^ 53)
    (finite : exponent < 969) :
    ofInt number = .finite false mantissa ((exponent + 2 : Nat) : Int) ↔
      roundDiv number (2 ^ (exponent + 2)) = mantissa := by
  rw [ofInt_natural lower upper (by omega)]
  split_ifs with carried
  · constructor
    · intro same
      injection same
      omega
    · omega
  · constructor
    · intro same
      injection same
    · rintro rfl
      rfl

/-- A number that has a bit less than a binary number rounds to it when its quotient is carried. -/
theorem ofInt_eq_iff_of_lt (lower : 2 ^ (52 + (exponent + 1)) ≤ number)
    (upper : number < 2 ^ (52 + (exponent + 2))) (finite : exponent < 969) :
    ofInt number = .finite false mantissa ((exponent + 2 : Nat) : Int) ↔
      mantissa = 2 ^ 52 ∧ roundDiv number (2 ^ (exponent + 1)) = 2 ^ 53 := by
  rw [ofInt_natural lower (by rwa [show 53 + (exponent + 1) = 52 + (exponent + 2) by omega])
    (by omega)]
  split_ifs with carried
  · constructor
    · intro same
      injection same with _ same
      exact ⟨same.symm, carried⟩
    · rintro ⟨rfl, -⟩
      rfl
  · constructor
    · intro same
      injection same
      omega
    · rintro ⟨-, other⟩
      exact absurd other carried

/-- Only numbers with all bits of a binary number or a bit less round to it. -/
theorem bounds_of_ofInt
    (rounded : ofInt number = .finite false mantissa ((exponent + 2 : Nat) : Int)) :
    2 ^ (52 + (exponent + 1)) ≤ number ∧ number < 2 ^ (53 + (exponent + 2)) := by
  have positive : number ≠ 0 := by
    rintro rfl
    cases rounded
  have bits := exponent_of_ofInt positive rounded
  exact ⟨(Nat.le_log2 positive).1 (by omega), (Nat.log2_lt positive).1 (by omega)⟩

/-- A mantissa of full precision is that of a power of two or a larger one. -/
theorem mantissa_mul_bounds (lower : 2 ^ 52 ≤ mantissa) (upper : mantissa < 2 ^ 53) (quarter : Nat) :
    (mantissa = 2 ^ 52 ∧ mantissa * quarter = 2 ^ 52 * quarter ∨
      2 ^ 52 < mantissa ∧ 2 ^ 52 * quarter + quarter ≤ mantissa * quarter) ∧
      mantissa * quarter + quarter ≤ 2 ^ 53 * quarter := by
  rw [← Nat.succ_mul, ← Nat.succ_mul]
  refine ⟨?_, Nat.mul_le_mul_right _ upper⟩
  rcases Nat.eq_or_lt_of_le lower with rfl | more
  · exact .inl ⟨rfl, rfl⟩
  · exact .inr ⟨more, Nat.mul_le_mul_right _ more⟩

/-- The natural numbers that have a large binary number as theirs are those that round to it. -/
theorem ofInt_eq_iff_rounds (lower : 2 ^ 52 ≤ mantissa) (upper : mantissa < 2 ^ 53)
    (finite : exponent < 969) :
    ofInt number = .finite false mantissa ((exponent + 2 : Nat) : Int) ↔
      Rounds mantissa exponent number := by
  -- everything is linear in a quarter of the unit and its product with the mantissa
  obtain ⟨least, greatest⟩ := mantissa_mul_bounds lower upper (2 ^ exponent)
  have quarter : 0 < 2 ^ exponent := Nat.two_pow_pos exponent
  have unit : 2 ^ (exponent + 2) = 4 * 2 ^ exponent := by ring
  have half : 2 ^ (exponent + 1) = 2 * 2 ^ exponent := by ring
  have top : 2 ^ (53 + (exponent + 2)) = 2 ^ 55 * 2 ^ exponent := by ring
  have middle : 2 ^ (52 + (exponent + 2)) = 2 ^ 54 * 2 ^ exponent := by ring
  have bottom : 2 ^ (52 + (exponent + 1)) = 2 ^ 53 * 2 ^ exponent := by ring
  have wide : (4 * mantissa + 2) * 2 ^ exponent =
      4 * (mantissa * 2 ^ exponent) + 2 * 2 ^ exponent := by ring
  have units : mantissa * (4 * 2 ^ exponent) = 4 * (mantissa * 2 ^ exponent) := by ring
  have bounded : ofInt number = .finite false mantissa ((exponent + 2 : Nat) : Int) ∨
      Rounds mantissa exponent number →
        2 ^ (52 + (exponent + 1)) ≤ number ∧ number < 2 ^ (53 + (exponent + 2)) := by
    rintro (rounded | rounds)
    · exact bounds_of_ofInt rounded
    · rw [Rounds, lowerQuarters_mul, wide] at rounds
      rw [bottom, top]
      split_ifs at rounds <;> omega
  by_cases inside : 2 ^ (52 + (exponent + 1)) ≤ number ∧ number < 2 ^ (53 + (exponent + 2))
  · by_cases above : 2 ^ (52 + (exponent + 2)) ≤ number
    · rw [ofInt_eq_iff_of_le above inside.2 upper finite, roundDiv_eq_iff (Nat.two_pow_pos _), unit,
        units, Rounds, lowerQuarters_mul, wide]
      rw [middle] at above
      split_ifs <;> omega
    · rw [ofInt_eq_iff_of_lt inside.1 (Nat.lt_of_not_le above) finite,
        roundDiv_eq_iff (Nat.two_pow_pos _), half, Rounds, lowerQuarters_mul, wide]
      rw [middle] at above
      split_ifs <;> omega
  · exact iff_of_false (fun rounded => inside (bounded (.inl rounded)))
      fun rounds => inside (bounded (.inr rounds))

end

end Binary64

end WorkflowBundle
