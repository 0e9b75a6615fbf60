/-
This file holds binary floating-point numbers of 53 significant bits as exact values, with the
rounding that makes one of a quotient or of a decimal.
-/

namespace WorkflowBundle

/-- A binary number is finite with a sign, a mantissa below `2 ^ 53` and an exponent of two, or it
is infinite, or it is no number. -/
inductive Binary64 where
  | finite (negative : Bool) (mantissa : Nat) (exponent : Int)
  | infinite (negative : Bool)
  | nan
deriving DecidableEq, Repr

namespace Binary64

/-- A normal mantissa has this many bits. -/
def precision : Nat := 53

/-- The least exponent is that of the numbers next to zero. -/
def minExponent : Int := -1074

/-- The greatest exponent is that of the largest finite numbers. -/
def maxExponent : Int := 971

def zero (negative : Bool) : Binary64 := .finite negative 0 minExponent

/-- A quotient goes to the nearest whole number, and a half goes to the even neighbour. -/
def roundDiv (numerator denominator : Nat) : Nat :=
  let quotient := numerator / denominator
  let twice := 2 * (numerator % denominator)
  if twice < denominator then quotient
  else if twice = denominator then quotient + quotient % 2
  else quotient + 1

/-- A rounded quotient differs from the exact one by at most a half. -/
theorem roundDiv_error (numerator denominator : Nat) (positive : 0 < denominator) :
    2 * numerator ≤ 2 * (roundDiv numerator denominator * denominator) + denominator ∧
      2 * (roundDiv numerator denominator * denominator) ≤ 2 * numerator + denominator := by
  have division := Nat.div_add_mod numerator denominator
  have below := Nat.mod_lt numerator positive
  have commuted := Nat.mul_comm denominator (numerator / denominator)
  simp only [roundDiv]
  split
  · omega
  · split
    · rcases Nat.mod_two_eq_zero_or_one (numerator / denominator) with even | odd
      · rw [even, Nat.add_zero]
        omega
      · rw [odd, Nat.add_mul]
        omega
    · rw [Nat.add_mul]
      omega

/-- A quotient of two powers of two scales the numerator or the denominator. -/
def scaledDiv (numerator denominator : Nat) (exponent : Int) : Nat :=
  if exponent < 0 then roundDiv (numerator * Nat.pow 2 (-exponent).toNat) denominator
  else roundDiv numerator (denominator * Nat.pow 2 exponent.toNat)

/-- A quotient lies below a power of two when its numerator lies below the scaled denominator. -/
def quotientBelow (numerator denominator : Nat) (power : Int) : Bool :=
  if power < 0 then numerator * Nat.pow 2 (-power).toNat < denominator
  else numerator < denominator * Nat.pow 2 power.toNat

/-- The exponent of a quotient leaves a mantissa of full precision, unless the least exponent
stops it. -/
def exponentOf (numerator denominator : Nat) : Int :=
  let estimate : Int := numerator.log2 - denominator.log2
  let power := if quotientBelow numerator denominator estimate then estimate else estimate + 1
  max (power - precision) minExponent

/-- The binary number of a quotient is the nearest one, and a quotient beyond all finite numbers
is infinite. -/
def ofRatio (negative : Bool) (numerator denominator : Nat) : Binary64 :=
  if numerator = 0 then zero negative
  else
    let exponent := exponentOf numerator denominator
    let mantissa := scaledDiv numerator denominator exponent
    if mantissa = Nat.pow 2 precision then
      if maxExponent ≤ exponent then .infinite negative
      else .finite negative (Nat.pow 2 (precision - 1)) (exponent + 1)
    else if maxExponent < exponent then .infinite negative
    else .finite negative mantissa exponent

/-- The binary number of an integer is the nearest one. -/
def ofInt (integer : Int) : Binary64 :=
  ofRatio (integer < 0) integer.natAbs 1

/-- The number of decimal digits of a natural number counts one for zero. -/
def digitCount (number : Nat) : Nat :=
  (Nat.toDigits 10 number).length

/-- The decimal `significand * 10 ^ exponent` is rounded once, and decimals far outside the range
are settled by the place of their first digit. -/
def ofDecimal (negative : Bool) (significand : Nat) (exponent : Int) : Binary64 :=
  let place := exponent + digitCount significand
  if significand = 0 || place < -400 then zero negative
  else if 400 < place then .infinite negative
  else if exponent < 0 then ofRatio negative significand (Nat.pow 10 (-exponent).toNat)
  else ofRatio negative (significand * Nat.pow 10 exponent.toNat) 1

def negate : Binary64 → Binary64
  | .finite negative mantissa exponent => .finite (!negative) mantissa exponent
  | .infinite negative => .infinite (!negative)
  | .nan => .nan

def isFinite : Binary64 → Bool
  | .finite .. => true
  | _ => false

/-- Two numbers are the same to an observer of values: both zeros are one, and so are all that are
no number. -/
def sameValue : Binary64 → Binary64 → Bool
  | .finite _ 0 _, .finite _ 0 _ => true
  | first, second => first == second

/-- The exact magnitude of a finite number is a quotient of natural numbers. -/
def magnitude (mantissa : Nat) (exponent : Int) : Nat × Nat :=
  if exponent < 0 then (mantissa, Nat.pow 2 (-exponent).toNat)
  else (mantissa * Nat.pow 2 exponent.toNat, 1)

/-- The product of two numbers is rounded once. -/
def multiply : Binary64 → Binary64 → Binary64
  | .finite negative mantissa exponent, .finite otherNegative otherMantissa otherExponent =>
    let first := magnitude mantissa exponent
    let second := magnitude otherMantissa otherExponent
    ofRatio (negative != otherNegative) (first.1 * second.1) (first.2 * second.2)
  | .nan, _ | _, .nan => .nan
  | .infinite negative, .finite otherNegative mantissa _ =>
    if mantissa = 0 then .nan else .infinite (negative != otherNegative)
  | .finite negative mantissa _, .infinite otherNegative =>
    if mantissa = 0 then .nan else .infinite (negative != otherNegative)
  | .infinite negative, .infinite otherNegative => .infinite (negative != otherNegative)

/-- The quotient of two numbers is rounded once, and zero divides nothing but zero to no number. -/
def divide : Binary64 → Binary64 → Binary64
  | .finite negative mantissa exponent, .finite otherNegative otherMantissa otherExponent =>
    if otherMantissa = 0 then
      if mantissa = 0 then .nan else .infinite (negative != otherNegative)
    else
      let first := magnitude mantissa exponent
      let second := magnitude otherMantissa otherExponent
      ofRatio (negative != otherNegative) (first.1 * second.2) (first.2 * second.1)
  | .nan, _ | _, .nan => .nan
  | .infinite negative, .finite otherNegative _ _ => .infinite (negative != otherNegative)
  | .finite negative _ _, .infinite otherNegative => zero (negative != otherNegative)
  | .infinite _, .infinite _ => .nan

end Binary64

end WorkflowBundle
