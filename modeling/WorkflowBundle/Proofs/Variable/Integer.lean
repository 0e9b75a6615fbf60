/-
This file shows how integers are rendered. Integers below `2 ^ 63` keep their digits, and larger ones
are rendered as the shortest decimal of their binary number, which may be another integer.
-/

import WorkflowBundle.Proofs.Decimal
import WorkflowBundle.Proofs.Decimal.Shortest
import WorkflowBundle.Proofs.Variable.Substitution
import WorkflowBundle.Variable.FromYaml

namespace WorkflowBundle

namespace Binary64

/-- The integer of a finite binary number has its sign and the whole part of its magnitude. -/
def toInt : Binary64 → Int
  | .finite negative mantissa exponent =>
    let whole := (magnitude mantissa exponent).1 / (magnitude mantissa exponent).2
    if negative then -(whole : Int) else whole
  | _ => 0

/-- The binary numbers from `2 ^ 63` to `2 ^ 64` have these mantissas, and these exponents of a quarter
of their unit. -/
structure IsLarge (mantissa exponent : Nat) : Prop where
  least : 2 ^ 52 ≤ mantissa
  normal : mantissa < 2 ^ 53
  scale : exponent = 9 ∨ exponent = 10 ∧ mantissa = 2 ^ 52

/-- An integer of 64 bits that does not fit 63 bits has a large binary number. -/
theorem exists_isLarge {number : Nat} (lower : 2 ^ 63 ≤ number) (upper : number < 2 ^ 64) :
    ∃ mantissa exponent, IsLarge mantissa exponent ∧
      ofInt number = .finite false mantissa ((exponent + 2 : Nat) : Int) := by
  have rounded := ofInt_natural (show 2 ^ (52 + 11) ≤ number from lower) upper (by decide)
  have error := roundDiv_error number (2 ^ 11) (by decide)
  split_ifs at rounded with carried
  · exact ⟨2 ^ 52, 10, ⟨by decide, by decide, .inr ⟨rfl, rfl⟩⟩, rounded⟩
  · exact ⟨_, 9, ⟨by omega, by omega, .inl rfl⟩, rounded⟩

namespace IsLarge

variable {mantissa exponent number first second : Nat}

/-- The natural numbers with a large binary number are those that round to it. -/
theorem ofInt_eq_iff (large : IsLarge mantissa exponent) :
    ofInt number = .finite false mantissa ((exponent + 2 : Nat) : Int) ↔
      Rounds mantissa exponent number := by
  refine ofInt_eq_iff_rounds large.least large.normal ?_
  obtain ⟨-, -, rfl | ⟨rfl, -⟩⟩ := large <;> decide

/-- A large binary number lies from `2 ^ 63` to `2 ^ 64`. -/
theorem bounds (large : IsLarge mantissa exponent) :
    2 ^ 63 ≤ 4 * mantissa * 2 ^ exponent ∧ 4 * mantissa * 2 ^ exponent ≤ 2 ^ 64 := by
  obtain ⟨lower, upper, rfl | ⟨rfl, rfl⟩⟩ := large <;> omega

/-- At most one multiple of ten thousand rounds to a large binary number. -/
theorem eq_of_rounds (large : IsLarge mantissa exponent)
    (one : Rounds mantissa exponent (first * 10 ^ 4))
    (other : Rounds mantissa exponent (second * 10 ^ 4)) : first = second := by
  rw [Rounds, lowerQuarters_mul] at one other
  obtain ⟨lower, upper, rfl | ⟨rfl, rfl⟩⟩ := large
  · split_ifs at one other <;> omega
  · split_ifs at one other <;> omega

/-- Multiples of a thousand that round to a large binary number are not below `2 ^ 63`. -/
theorem le_of_rounds (large : IsLarge mantissa exponent)
    (rounds : Rounds mantissa exponent (number * 10 ^ 3)) : 2 ^ 63 ≤ number * 10 ^ 3 := by
  rw [Rounds, lowerQuarters_mul] at rounds
  obtain ⟨lower, upper, rfl | ⟨rfl, rfl⟩⟩ := large
  · split_ifs at rounds <;> omega
  · split_ifs at rounds <;> omega

/-- The nearest multiples of a thousand round to a large binary number. -/
theorem rounds_of_isNearest (large : IsLarge mantissa exponent)
    (near : Decimal.IsNearest 3 number (4 * mantissa * 2 ^ exponent)) :
    Rounds mantissa exponent (number * 10 ^ 3) := by
  rw [Decimal.IsNearest] at near
  rw [Rounds, lowerQuarters_mul]
  obtain ⟨lower, upper, rfl | ⟨rfl, rfl⟩⟩ := large
  · split_ifs <;> omega
  · split_ifs <;> omega

/-- Only one multiple of a thousand is nearest to a large binary number: the number is a multiple of
eight, and so it is not in the middle between two of them. -/
theorem eq_of_isNearest (large : IsLarge mantissa exponent)
    (one : Decimal.IsNearest 3 first (4 * mantissa * 2 ^ exponent))
    (other : Decimal.IsNearest 3 second (4 * mantissa * 2 ^ exponent)) : first = second := by
  rw [Decimal.IsNearest] at one other
  obtain ⟨-, -, rfl | ⟨rfl, rfl⟩⟩ := large <;> omega

end IsLarge

/-- A multiple of a thousand is nearest to a binary number when it differs by at most a half. -/
theorem natAbs_sub_toInt_le_iff {mantissa exponent number : Nat} :
    2 * (((10 ^ 3 * number : Nat) : Int) -
        toInt (.finite false mantissa ((exponent + 2 : Nat) : Int))).natAbs ≤ 10 ^ 3 ↔
      Decimal.IsNearest 3 number (4 * mantissa * 2 ^ exponent) := by
  have value : toInt (.finite false mantissa ((exponent + 2 : Nat) : Int)) =
      ((4 * mantissa * 2 ^ exponent : Nat) : Int) := by
    have whole : magnitude mantissa ((exponent + 2 : Nat) : Int) =
        (4 * mantissa * 2 ^ exponent, 1) := by
      rw [magnitude, if_neg (Int.not_lt.2 (Int.natCast_nonneg _)), Int.toNat_natCast, Nat.pow_eq,
        Nat.pow_add, Nat.mul_comm (2 ^ exponent), ← Nat.mul_assoc, Nat.mul_comm mantissa]
    rw [toInt, whole, Nat.div_one, if_neg Bool.false_ne_true]
  rw [value, Decimal.IsNearest]
  omega

end Binary64

namespace Variable

open Binary64 (ofInt toInt)

/-- An integer is a value of its own below `2 ^ 63`, and a binary number from there on. -/
def Value.ofInteger (integer : Int) : Value :=
  if integer < 2 ^ 63 then .integer integer else .binary (ofInt integer)

/-- An integer is preferred among those with its binary number when it is a multiple of ten thousand,
or when no multiple of ten thousand has that binary number and the integer is a nearest multiple of a
thousand. -/
def IsPreferredInteger (integer : Int) : Prop :=
  10 ^ 4 ∣ integer ∨
    10 ^ 3 ∣ integer ∧ 2 * (integer - (ofInt integer).toInt).natAbs ≤ 10 ^ 3 ∧
      ∀ other : Nat, 10 ^ 4 ∣ other → ofInt other ≠ ofInt integer

/-- A declared integer is a value, whatever its tag. -/
theorem ofYaml?_of_untagged {yaml : Yaml} {integer : Int} (declared : yaml.untagged = .integer integer) :
    Value.ofYaml? yaml = some (.ofInteger integer) := by
  fun_induction Value.ofYaml? yaml with
  | case6 tag inner inductionHypothesis => exact inductionHypothesis declared
  | case3 value =>
      obtain rfl := Yaml.integer.inj declared
      rfl
  | _ => cases declared

theorem used?_ofInteger {table : Table} {name : String} {integer : Int}
    (bound : table.find? name = some (.ofInteger integer)) (text : String) :
    used? table text name = some (Value.ofInteger integer).render := by
  rw [used?]
  cases expandText table text with
  | error violation => simp [Table.text?, bound]
  | ok expanded =>
      simp only [given?, bound, Value.ofInteger]
      split_ifs <;> rfl

section

variable {number : Nat}

/-- A large integer is rendered as the natural number of its shortest decimal. -/
theorem render_of_denotes {mantissa exponent shown : Nat} (large : 2 ^ 63 ≤ number)
    (rounded : ofInt number = .finite false mantissa ((exponent + 2 : Nat) : Int))
    (denotes : Decimal.Denotes (.shortest .up mantissa ((exponent + 2 : Nat) : Int)) shown)
    (positive : 0 < shown) : (Value.ofInteger number).render = toString shown := by
  rw [← Decimal.writePositional_of_denotes denotes positive, Value.ofInteger, if_neg (by omega),
    rounded]
  rfl

/-- A large integer is rendered as an integer with the same binary number: as the multiple of ten
thousand, if there is one, or else as the nearest multiple of a thousand. -/
theorem exists_shown (lower : 2 ^ 63 ≤ number) (upper : number < 2 ^ 64) :
    ∃ shown : Nat, (Value.ofInteger number).render = toString shown ∧ 2 ^ 63 ≤ shown ∧
      ofInt shown = ofInt number ∧
      ((10 ^ 4 ∣ shown ∧
          ∀ other : Nat, 10 ^ 4 ∣ other → ofInt other = ofInt number → other = shown) ∨
        (∀ other : Nat, 10 ^ 4 ∣ other → ofInt other ≠ ofInt number) ∧ 10 ^ 3 ∣ shown ∧
          ∀ other : Nat, 10 ^ 3 ∣ other →
            (2 * ((other : Int) - (ofInt number).toInt).natAbs ≤ 10 ^ 3 ↔ other = shown)) := by
  obtain ⟨mantissa, exponent, large, rounded⟩ := Binary64.exists_isLarge lower upper
  obtain ⟨least, greatest⟩ := large.bounds
  have positive : 0 < mantissa := Nat.lt_of_lt_of_le (by decide) large.least
  have same (other : Nat) : ofInt other = ofInt number ↔
      Binary64.Rounds mantissa exponent other := by rw [rounded, large.ofInt_eq_iff]
  by_cases coarse : ∃ multiple, Binary64.Rounds mantissa exponent (multiple * 10 ^ 4)
  · obtain ⟨multiple, rounds⟩ := coarse
    have denotes := Decimal.denotes_shortest_of_single .up positive (le_trans (by decide) least)
      (lt_of_le_of_lt greatest (by decide)) rounds fun _ around => large.eq_of_rounds around rounds
    have shown : 2 ^ 63 ≤ multiple * 10 ^ 4 := by
      have finer : multiple * 10 ^ 4 = multiple * 10 * 10 ^ 3 := by omega
      rw [finer] at rounds ⊢
      exact large.le_of_rounds rounds
    refine ⟨multiple * 10 ^ 4, render_of_denotes lower rounded denotes (by omega), shown,
      (same _).2 rounds, .inl ⟨Nat.dvd_mul_left _ _, ?_⟩⟩
    rintro _ ⟨other, rfl⟩ alike
    rw [Nat.mul_comm, same] at alike
    rw [Nat.mul_comm, large.eq_of_rounds alike rounds]
  · obtain ⟨near, nearest, denotes⟩ := Decimal.denotes_shortest_of_nearest .up positive
      (le_trans (by decide) least) (lt_of_le_of_lt greatest (by decide))
      (fun _ nearest => large.rounds_of_isNearest nearest) fun other around => coarse ⟨other, around⟩
    have rounds := large.rounds_of_isNearest nearest
    have shown := large.le_of_rounds rounds
    refine ⟨near * 10 ^ 3, render_of_denotes lower rounded denotes (by omega), shown,
      (same _).2 rounds, .inr ⟨?_, Nat.dvd_mul_left _ _, ?_⟩⟩
    · rintro _ ⟨other, rfl⟩ alike
      rw [Nat.mul_comm, same] at alike
      exact coarse ⟨other, alike⟩
    · rintro _ ⟨other, rfl⟩
      rw [rounded, Binary64.natAbs_sub_toInt_le_iff, Nat.mul_comm (10 ^ 3) other]
      constructor
      · intro other_nearest
        rw [large.eq_of_isNearest other_nearest nearest]
      · intro equal
        obtain rfl : other = near := Nat.mul_right_cancel (by decide) equal
        exact nearest

/-- A large integer keeps its digits exactly when it is preferred. -/
theorem render_large_iff (lower : 2 ^ 63 ≤ number) (upper : number < 2 ^ 64) :
    (Value.ofInteger number).render = toString number ↔ IsPreferredInteger number := by
  obtain ⟨shown, rendered, -, alike, choice⟩ := exists_shown lower upper
  rw [rendered, Decimal.toString_nat_injective.eq_iff, IsPreferredInteger]
  rcases choice with ⟨multiple, single⟩ | ⟨none, multiple, nearest⟩
  · constructor
    · rintro rfl
      exact .inl (by exact_mod_cast multiple)
    · rintro (coarse | ⟨-, -, none⟩)
      · exact (single number (by exact_mod_cast coarse) rfl).symm
      · exact absurd alike (none shown multiple)
  · constructor
    · rintro rfl
      exact .inr ⟨by exact_mod_cast multiple, (nearest shown multiple).2 rfl, none⟩
    · rintro (coarse | ⟨fine, near, -⟩)
      · exact absurd rfl (none number (by exact_mod_cast coarse))
      · exact ((nearest number (by exact_mod_cast fine)).1 near).symm

end

theorem render_small {integer : Int} (small : integer < 2 ^ 63) :
    (Value.ofInteger integer).render = toString integer := by
  rw [Value.ofInteger, if_pos small]
  rfl

/-- A rendered integer is that of an integer of the same size, which is the integer itself when it is
small, and has the same binary number when it is large. -/
theorem exists_rendered {integer : Int} (held : integer < 2 ^ 64) :
    ∃ shown : Int, (Value.ofInteger integer).render = toString shown ∧
      (integer < 2 ^ 63 ∧ shown = integer ∨
        2 ^ 63 ≤ integer ∧ 2 ^ 63 ≤ shown ∧ ofInt shown = ofInt integer) := by
  by_cases small : integer < 2 ^ 63
  · exact ⟨integer, render_small small, .inl ⟨small, rfl⟩⟩
  · obtain ⟨number, rfl⟩ := Int.eq_ofNat_of_zero_le (show 0 ≤ integer by omega)
    obtain ⟨shown, rendered, large, alike, -⟩ :=
      exists_shown (show 2 ^ 63 ≤ number by omega) (by omega)
    exact ⟨shown, rendered, .inr ⟨by omega, by omega, alike⟩⟩

/-- Two integers are rendered alike exactly when they are the same, or when both are large and have the
same binary number. -/
theorem render_eq_iff {first second : Int} (one : first < 2 ^ 64) (other : second < 2 ^ 64) :
    (Value.ofInteger first).render = (Value.ofInteger second).render ↔
      first = second ∨ 2 ^ 63 ≤ first ∧ 2 ^ 63 ≤ second ∧ ofInt first = ofInt second := by
  constructor
  · intro alike
    obtain ⟨shown, rendered, choice⟩ := exists_rendered one
    obtain ⟨other_shown, other_rendered, other_choice⟩ := exists_rendered other
    rw [rendered, other_rendered, Decimal.toString_int_injective.eq_iff] at alike
    subst alike
    rcases choice with ⟨small, rfl⟩ | ⟨large, shown_large, same⟩ <;>
      rcases other_choice with ⟨other_small, rfl⟩ | ⟨other_large, other_shown_large, other_same⟩
    · exact .inl rfl
    · omega
    · omega
    · exact .inr ⟨large, other_large, same.symm.trans other_same⟩
  · rintro (rfl | ⟨large, other_large, same⟩)
    · rfl
    · rw [Value.ofInteger, Value.ofInteger, if_neg (by omega), if_neg (by omega), same]

/-- A declared integer of at most 64 bits becomes a variable, whatever its tag, and a substitution
inserts the variable as it is rendered. It is rendered with its own digits if and only if it is below
`2 ^ 63` or preferred among the integers with its binary number. Two integers are rendered alike if and
only if they are the same, or not below `2 ^ 63` and with the same binary number. -/
theorem integer_keeps_digits_iff {integer : Int} (held : integer < 2 ^ 64) :
    (∀ yaml : Yaml, yaml.untagged = .integer integer →
      Value.ofYaml? yaml = some (.ofInteger integer)) ∧
      ((Value.ofInteger integer).render = toString integer ↔
        integer < 2 ^ 63 ∨ IsPreferredInteger integer) ∧
      (∀ other < 2 ^ 64, (Value.ofInteger other).render = (Value.ofInteger integer).render ↔
        other = integer ∨ 2 ^ 63 ≤ other ∧ 2 ^ 63 ≤ integer ∧ ofInt other = ofInt integer) ∧
      ∀ table name, table.find? name = some (.ofInteger integer) → ∀ text,
        substitute table text = fill (used? table text) text ∧
          used? table text name = some (Value.ofInteger integer).render := by
  refine ⟨fun yaml => ofYaml?_of_untagged, ?_, fun other below => render_eq_iff below held,
    fun table name bound text => ⟨substitute_eq_fill table text, used?_ofInteger bound text⟩⟩
  by_cases small : integer < 2 ^ 63
  · exact iff_of_true (render_small small) (.inl small)
  · obtain ⟨number, rfl⟩ := Int.eq_ofNat_of_zero_le (show 0 ≤ integer by omega)
    rw [or_iff_right small]
    exact render_large_iff (by omega) (by omega)

/-- An integer of twenty digits keeps them when nineteen of them are zeros. -/
theorem power_of_ten_keeps_digits :
    (10 : Int) ^ 19 < 2 ^ 64 ∧ (Value.ofInteger (10 ^ 19)).render = toString ((10 : Int) ^ 19) :=
  ⟨by decide, (integer_keeps_digits_iff (by decide)).2.1.2 (.inr (.inl (by decide)))⟩

/-- The greatest integer of 64 bits is rendered as another integer, and so is the one below it. -/
theorem greatest_integers_are_rendered_alike :
    ∃ greatest other, Value.ofYaml? (.integer (2 ^ 64 - 1)) = some greatest ∧
      Value.ofYaml? (.integer (2 ^ 64 - 2)) = some other ∧
      greatest.render = "18446744073709552000" ∧ other.render = greatest.render ∧
      greatest.render ≠ toString ((2 : Int) ^ 64 - 1) :=
  ⟨_, _, rfl, rfl, by decide +kernel, by decide +kernel, by decide +kernel⟩

end Variable

end WorkflowBundle
