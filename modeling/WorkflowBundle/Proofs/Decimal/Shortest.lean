/-
This file shows which decimal is the shortest one of a large binary number: the multiple of a power of
ten that rounds to it, if there is one, or else a nearest multiple of the next finer power.
-/

import WorkflowBundle.Decimal.Style
import WorkflowBundle.Proofs.Decimal.Rounding

namespace WorkflowBundle

namespace Binary64

variable {mantissa exponent first last number : Nat}

/-- What lies between two numbers that round to a binary number rounds to it. -/
theorem Rounds.between (one : Rounds mantissa exponent first) (other : Rounds mantissa exponent last)
    (lower : first ≤ number) (upper : number ≤ last) : Rounds mantissa exponent number := by
  rw [Rounds] at *
  split_ifs at * <;> omega

theorem rounds_self (positive : 0 < mantissa) :
    Rounds mantissa exponent (4 * mantissa * 2 ^ exponent) := by
  have quarter : 0 < 2 ^ exponent := Nat.two_pow_pos exponent
  have lower : lowerQuarters mantissa < 4 * mantissa := by
    rw [lowerQuarters]
    split_ifs <;> omega
  have below := Nat.mul_lt_mul_of_pos_right lower quarter
  have above := Nat.mul_lt_mul_of_pos_right (show 4 * mantissa < 4 * mantissa + 2 by omega) quarter
  rw [Rounds]
  split_ifs <;> omega

end Binary64

namespace Decimal

open Binary64 (Rounds rounds_self lowerQuarters)

/-- A decimal may denote a natural number. -/
def Denotes (decimal : Decimal) (number : Nat) : Prop :=
  ∃ places : Nat, decimal.exponent = places ∧ decimal.significand * 10 ^ places = number

/-- A multiple of a power of ten is nearest to a number when it is at most half a step away. -/
def IsNearest (places significand number : Nat) : Prop :=
  2 * (significand * 10 ^ places) ≤ 2 * number + 10 ^ places ∧
    2 * number ≤ 2 * (significand * 10 ^ places) + 10 ^ places

/-- A number that is scaled by a power is natural. -/
@[simp] theorem scaled_natural (number base exponent : Nat) :
    scaled number base (exponent : Int) = (number * base ^ exponent, 1) := by
  simp [scaled]

/-- Natural numbers are compared as quotients. -/
@[simp] theorem before_natural (first second : Nat) :
    before (first, 1) (second, 1) = decide (first < second) := by
  simp [before]

section

variable {tie : Tie} {mantissa exponent places significand number : Nat}

/-- The interval of a large binary number has natural ends. -/
theorem intervalOf_natural (mantissa exponent : Nat) :
    intervalOf mantissa ((exponent + 2 : Nat) : Int) =
      { lower := (lowerQuarters mantissa * 2 ^ exponent, 1)
        value := (4 * mantissa * 2 ^ exponent, 1)
        upper := ((4 * mantissa + 2) * 2 ^ exponent, 1)
        closed := mantissa % 2 == 0 } := by
  have quarter : ((exponent + 2 : Nat) : Int) - 2 = exponent := by omega
  have above : Binary64.minExponent < ((exponent + 2 : Nat) : Int) := by
    rw [Binary64.minExponent]
    omega
  have least : Nat.pow 2 (Binary64.precision - 1) = 2 ^ 52 := rfl
  rw [intervalOf, quarter, least]
  simp only [scaled_natural, above, decide_true, Bool.and_true, lowerQuarters, decide_eq_true_eq]
  congr 1
  split_ifs <;> rfl

/-- The interval of a large binary number lies around its value. -/
theorem value_intervalOf :
    (intervalOf mantissa ((exponent + 2 : Nat) : Int)).value = (4 * mantissa * 2 ^ exponent, 1) := by
  rw [intervalOf_natural]

/-- A decimal belongs to the interval of a large binary number when it rounds to it. -/
theorem holds_natural :
    (intervalOf mantissa ((exponent + 2 : Nat) : Int)).holds ⟨significand, places⟩ = true ↔
      Rounds mantissa exponent (significand * 10 ^ places) := by
  rw [intervalOf_natural, Interval.holds, Rounds]
  by_cases even : mantissa % 2 = 0 <;> simp [even]

/-- The decimal below a number on a grid is its whole part there. -/
@[simp] theorem below_natural (number places : Nat) :
    below (number, 1) places = ⟨number / 10 ^ places, places⟩ := by
  simp [below]

/-- A number lies between two neighbours on a grid. -/
theorem neighbours (number places : Nat) :
    number / 10 ^ places * 10 ^ places ≤ number ∧
      number < (number / 10 ^ places + 1) * 10 ^ places :=
  ⟨Nat.div_mul_le_self number _,
    (Nat.div_lt_iff_lt_mul (Nat.pow_pos (by decide))).1 (Nat.lt_succ_self _)⟩

theorem isNearest_or (lower : significand * 10 ^ places ≤ number)
    (upper : number < (significand + 1) * 10 ^ places) :
    IsNearest places significand number ∨ IsNearest places (significand + 1) number := by
  have next : (significand + 1) * 10 ^ places = significand * 10 ^ places + 10 ^ places :=
    Nat.succ_mul significand _
  rw [next] at upper
  rw [IsNearest, IsNearest, next]
  omega

/-- Of the two neighbours of a number on a grid, a nearest one is taken. -/
theorem nearer_natural (tie : Tie) (lower : significand * 10 ^ places ≤ number)
    (upper : number < (significand + 1) * 10 ^ places) :
    ∃ taken, nearer tie (number, 1) ⟨significand, places⟩ = ⟨taken, places⟩ ∧
      (taken = significand ∨ taken = significand + 1) ∧ IsNearest places taken number := by
  have middle : (2 * significand + 1) * 10 ^ places =
      2 * (significand * 10 ^ places) + 10 ^ places := by ring
  have next : (significand + 1) * 10 ^ places = significand * 10 ^ places + 10 ^ places :=
    Nat.succ_mul significand _
  rw [next] at upper
  simp only [nearer, scaled_natural, before_natural, middle, decide_eq_true_eq, IsNearest]
  rcases Nat.lt_trichotomy (2 * number) (2 * (significand * 10 ^ places) + 10 ^ places) with
    less | same | more
  · rw [if_pos less]
    exact ⟨significand, rfl, .inl rfl, by omega⟩
  · rw [if_neg (by omega), if_neg (by omega)]
    have one : ∃ taken, (⟨significand, places⟩ : Decimal) = ⟨taken, places⟩ ∧
        (taken = significand ∨ taken = significand + 1) ∧ IsNearest places taken number :=
      ⟨significand, rfl, .inl rfl, by rw [IsNearest]; omega⟩
    have other : ∃ taken, (⟨significand + 1, places⟩ : Decimal) = ⟨taken, places⟩ ∧
        (taken = significand ∨ taken = significand + 1) ∧ IsNearest places taken number :=
      ⟨significand + 1, rfl, .inr rfl, by rw [IsNearest, next]; omega⟩
    cases tie with
    | up => exact other
    | toEven =>
        dsimp only
        split_ifs
        · exact one
        · exact other
  · rw [if_neg (by omega), if_pos more]
    exact ⟨significand + 1, rfl, .inr rfl, by omega⟩

/-- A hit is a decimal of the grid that rounds to the binary number, and a nearest one where these
round to it. -/
theorem hit?_eq_some {found : Decimal}
    (hit : hit? tie (intervalOf mantissa ((exponent + 2 : Nat) : Int)) places = some found) :
    ∃ taken, found = ⟨taken, places⟩ ∧ Rounds mantissa exponent (taken * 10 ^ places) ∧
      ((∀ other, IsNearest places other (4 * mantissa * 2 ^ exponent) →
        Rounds mantissa exponent (other * 10 ^ places)) →
        IsNearest places taken (4 * mantissa * 2 ^ exponent)) := by
  obtain ⟨least, greatest⟩ := neighbours (4 * mantissa * 2 ^ exponent) places
  simp only [hit?, value_intervalOf, below_natural] at hit
  split at hit
  · rename_i lower upper
    obtain rfl := Option.some.inj hit
    obtain ⟨taken, same, rfl | rfl, near⟩ := nearer_natural tie least greatest
    · exact ⟨_, same, holds_natural.1 lower, fun _ => near⟩
    · exact ⟨_, same, holds_natural.1 upper, fun _ => near⟩
  · rename_i lower upper
    obtain rfl := Option.some.inj hit
    refine ⟨_, rfl, holds_natural.1 lower, fun fine => (isNearest_or least greatest).resolve_right ?_⟩
    exact fun near => Bool.eq_false_iff.1 upper (holds_natural.2 (fine _ near))
  · rename_i lower upper
    obtain rfl := Option.some.inj hit
    refine ⟨_, rfl, holds_natural.1 upper, fun fine => (isNearest_or least greatest).resolve_left ?_⟩
    exact fun near => Bool.eq_false_iff.1 lower (holds_natural.2 (fine _ near))
  · cases hit

theorem isSome_hit? (positive : 0 < mantissa)
    (rounds : Rounds mantissa exponent (significand * 10 ^ places)) :
    (hit? tie (intervalOf mantissa ((exponent + 2 : Nat) : Int)) places).isSome = true := by
  obtain ⟨least, greatest⟩ := neighbours (4 * mantissa * 2 ^ exponent) places
  simp only [hit?, value_intervalOf, below_natural]
  split
  · rfl
  · rfl
  · rfl
  · rename_i lower upper
    -- the number itself rounds, and so does the neighbour between it and the given decimal
    have itself : Rounds mantissa exponent (4 * mantissa * 2 ^ exponent) := rounds_self positive
    rcases Nat.lt_or_ge (4 * mantissa * 2 ^ exponent / 10 ^ places) significand with more | less
    · have bounded := Nat.mul_le_mul_right (10 ^ places) (Nat.succ_le_of_lt more)
      exact absurd (holds_natural.2 (itself.between rounds greatest.le bounded))
        (Bool.eq_false_iff.1 upper)
    · have bounded := Nat.mul_le_mul_right (10 ^ places) less
      exact absurd (holds_natural.2 (rounds.between itself bounded least))
        (Bool.eq_false_iff.1 lower)

theorem Denotes.dropZeros {decimal : Decimal} (denotes : Denotes decimal number) (fuel : Nat) :
    Denotes (dropZeros fuel decimal) number := by
  induction fuel generalizing decimal with
  | zero => exact denotes
  | succ fuel inductionHypothesis =>
      rw [Decimal.dropZeros]
      split
      · rename_i last
        obtain ⟨places, named, same⟩ := denotes
        refine inductionHypothesis ⟨places + 1, by rw [named]; rfl, ?_⟩
        rw [Bool.and_eq_true, decide_eq_true_eq, decide_eq_true_eq] at last
        rw [Nat.pow_succ', ← Nat.mul_assoc, Nat.div_mul_cancel (Nat.dvd_of_mod_eq_zero last.2), same]
      · exact denotes

/-- A number has no more digits than places exactly when it is below that power of ten. -/
theorem digitCount_le_iff (positive : 0 < places) :
    Binary64.digitCount number ≤ places ↔ number < 10 ^ places :=
  Nat.length_toDigits_le_iff (by decide) positive

/-- The first digit of a number has the place that its digits give it. -/
theorem placeOf_natural (positive : 0 < number) :
    ∃ place : Nat, placeOf (number, 1) = place ∧ 10 ^ place ≤ number ∧ number < 10 ^ (place + 1) := by
  obtain ⟨place, digits⟩ : ∃ place, Binary64.digitCount number = place + 1 :=
    Nat.exists_eq_add_one.2 (Nat.length_toDigits_pos)
  have upper : number < 10 ^ (place + 1) :=
    (digitCount_le_iff (Nat.succ_pos _)).1 digits.le
  have lower : 10 ^ place ≤ number := by
    cases place with
    | zero => exact positive
    | succ place =>
        refine Nat.le_of_not_lt fun less => ?_
        have few := (digitCount_le_iff (Nat.succ_pos _)).2 less
        omega
  refine ⟨place, ?_, lower, upper⟩
  have one : Binary64.digitCount 1 = 1 := rfl
  have estimate : ((place + 1 : Nat) : Int) - ((1 : Nat) : Int) = place := by omega
  simp only [placeOf, digits, one, estimate, scaled_natural, Nat.one_mul, before_natural]
  rw [if_neg (by simpa using lower)]

/-- A search over a range that meets something finds it or meets something before. -/
theorem findSome?_range (found? : Nat → Option Decimal) {limit step : Nat} (inside : step < limit)
    (met : (found? step).isSome = true) :
    ∃ first ≤ step, ∃ found, found? first = some found ∧
      (List.range limit).findSome? found? = some found := by
  have some : ∃ step, (found? step).isSome = true := ⟨step, met⟩
  have first : Nat.find some ≤ step := Nat.find_min' some met
  obtain ⟨found, hit⟩ := Option.isSome_iff_exists.1 (Nat.find_spec some)
  have none (earlier : Nat) (before : earlier < Nat.find some) : found? earlier = none :=
    Option.not_isSome_iff_eq_none.1 (Nat.find_min some before)
  obtain ⟨rest, rfl⟩ := Nat.exists_eq_add_of_lt (Nat.lt_of_le_of_lt first inside)
  refine ⟨Nat.find some, first, found, hit, ?_⟩
  refine List.findSome?_eq_some_iff.2 ⟨List.range (Nat.find some), Nat.find some,
    List.range' (Nat.find some + 1) rest, ?_, hit, fun earlier member =>
      none earlier (List.mem_range.1 member)⟩
  rw [List.range_eq_range', List.range_eq_range', ← List.range'_succ, Nat.add_assoc,
    ← List.range'_append_1, Nat.zero_add]

/-- The shortest decimal lies on a grid that is no finer than one that hits. -/
theorem shortest_of_hit (tie : Tie) (positive : 0 < mantissa)
    (long : 10 ^ places ≤ 4 * mantissa * 2 ^ exponent)
    (short : 4 * mantissa * 2 ^ exponent < 10 ^ (places + digitLimit))
    (met : (hit? tie (intervalOf mantissa ((exponent + 2 : Nat) : Int)) places).isSome = true) :
    ∃ coarser : Nat, places ≤ coarser ∧ ∃ found,
      hit? tie (intervalOf mantissa ((exponent + 2 : Nat) : Int)) coarser = some found ∧
      shortest tie mantissa ((exponent + 2 : Nat) : Int) = dropZeros (digitLimit + 1) found := by
  obtain ⟨place, placed, least, greatest⟩ :=
    placeOf_natural (Nat.lt_of_lt_of_le (Nat.pow_pos (by decide)) long)
  have lower : places < place + 1 :=
    (Nat.pow_lt_pow_iff_right (by decide)).1 (Nat.lt_of_le_of_lt long greatest)
  have upper : place < places + digitLimit :=
    (Nat.pow_lt_pow_iff_right (by decide)).1 (Nat.lt_of_le_of_lt least short)
  have grid (step : Nat) (early : step ≤ place) :
      (place : Int) - Int.ofNat step = ((place - step : Nat) : Int) := by
    rw [Int.ofNat_eq_natCast]
    omega
  obtain ⟨first, early, found, hit, search⟩ := findSome?_range
    (fun digits => hit? tie (intervalOf mantissa ((exponent + 2 : Nat) : Int))
      (place - Int.ofNat digits))
    (show place - places < digitLimit by omega)
    (by rw [grid _ (by omega), Nat.sub_sub_self (by omega)]; exact met)
  rw [grid first (by omega)] at hit
  refine ⟨place - first, by omega, found, hit, ?_⟩
  simp only [shortest, if_neg positive.ne', value_intervalOf, placed, search]
  rfl

/-- The shortest decimal is the multiple of a power of ten that rounds to the binary number, if there
is exactly one. -/
theorem denotes_shortest_of_single (tie : Tie) (positive : 0 < mantissa)
    (long : 10 ^ places ≤ 4 * mantissa * 2 ^ exponent)
    (short : 4 * mantissa * 2 ^ exponent < 10 ^ (places + digitLimit))
    (rounds : Rounds mantissa exponent (significand * 10 ^ places))
    (single : ∀ other, Rounds mantissa exponent (other * 10 ^ places) → other = significand) :
    Denotes (shortest tie mantissa ((exponent + 2 : Nat) : Int)) (significand * 10 ^ places) := by
  obtain ⟨coarser, coarse, found, hit, same⟩ :=
    shortest_of_hit tie positive long short (isSome_hit? positive rounds)
  obtain ⟨taken, rfl, around, -⟩ := hit?_eq_some hit
  obtain ⟨more, rfl⟩ := Nat.exists_eq_add_of_le coarse
  rw [Nat.add_comm, Nat.pow_add, ← Nat.mul_assoc] at around
  rw [same, ← single _ around]
  refine Denotes.dropZeros ⟨_, rfl, ?_⟩ _
  rw [Nat.add_comm, Nat.pow_add, ← Nat.mul_assoc]

/-- Where no multiple of the next power of ten rounds to the binary number but every nearest multiple
of a power does, the shortest decimal is one of these. -/
theorem denotes_shortest_of_nearest (tie : Tie) (positive : 0 < mantissa)
    (long : 10 ^ places ≤ 4 * mantissa * 2 ^ exponent)
    (short : 4 * mantissa * 2 ^ exponent < 10 ^ (places + digitLimit))
    (fine : ∀ near, IsNearest places near (4 * mantissa * 2 ^ exponent) →
      Rounds mantissa exponent (near * 10 ^ places))
    (none : ∀ other, ¬ Rounds mantissa exponent (other * 10 ^ (places + 1))) :
    ∃ near, IsNearest places near (4 * mantissa * 2 ^ exponent) ∧
      Denotes (shortest tie mantissa ((exponent + 2 : Nat) : Int)) (near * 10 ^ places) := by
  obtain ⟨least, greatest⟩ := neighbours (4 * mantissa * 2 ^ exponent) places
  have met : (hit? tie (intervalOf mantissa ((exponent + 2 : Nat) : Int)) places).isSome = true := by
    rcases isNearest_or least greatest with near | near
    · exact isSome_hit? positive (fine _ near)
    · exact isSome_hit? positive (fine _ near)
  obtain ⟨coarser, coarse, found, hit, same⟩ := shortest_of_hit tie positive long short met
  obtain ⟨taken, rfl, around, near⟩ := hit?_eq_some hit
  rcases Nat.eq_or_lt_of_le coarse with rfl | more
  · rw [same]
    exact ⟨taken, near fine, Denotes.dropZeros ⟨_, rfl, rfl⟩ _⟩
  · obtain ⟨more, rfl⟩ := Nat.exists_eq_add_of_le (show places + 1 ≤ coarser from more)
    rw [Nat.add_comm, Nat.pow_add, ← Nat.mul_assoc] at around
    exact absurd around (none _)

/-- A positive number that is multiplied by a power of ten has zeros behind its digits. -/
theorem digitsOf_mul_pow (positive : 0 < number) :
    digitsOf (number * 10 ^ places) = digitsOf number ++ List.replicate places '0' := by
  induction places with
  | zero => simp
  | succ places inductionHypothesis =>
      have zero : Nat.toDigits 10 0 = ['0'] := rfl
      rw [Nat.pow_succ', Nat.mul_left_comm, ← Nat.add_zero (10 * _), digitsOf,
        ← Nat.toDigits_append_toDigits (by decide) (Nat.mul_pos positive (Nat.pow_pos (by decide)))
          (by decide), zero, ← digitsOf, inductionHypothesis, List.append_assoc,
        ← List.replicate_succ']

/-- A decimal that denotes a positive number is written in full as that number. -/
theorem writePositional_of_denotes {decimal : Decimal} (denotes : Denotes decimal number)
    (positive : 0 < number) : writePositional "" decimal = toString number := by
  obtain ⟨places, named, rfl⟩ := denotes
  have whole : (0 : Int) ≤ places := Int.natCast_nonneg places
  rw [Nat.toString_eq_ofList_toDigits, writePositional]
  simp only [named, if_pos whole, Int.toNat_natCast, String.append_empty]
  rw [← digitsOf, digitsOf_mul_pow (Nat.pos_of_mul_pos_right positive)]

end

end Decimal

end WorkflowBundle
