/-
This file finds the decimal with the fewest digits that reads back as a given binary number.
-/

import WorkflowBundle.Decimal.Binary64

namespace WorkflowBundle

/-- A decimal stands for `significand * 10 ^ exponent`. -/
structure Decimal where
  significand : Nat
  exponent : Int
deriving DecidableEq, Repr

namespace Decimal

/-- Where two decimals are equally near, the even one or the larger one is taken. -/
inductive Tie where
  | toEven
  | up
deriving DecidableEq, Repr

/-- A whole number times a power of a base is a quotient of natural numbers. -/
def scaled (number base : Nat) (exponent : Int) : Nat × Nat :=
  if exponent < 0 then (number, base.pow (-exponent).toNat)
  else (number * base.pow exponent.toNat, 1)

/-- A quotient lies before another when cross multiplication says so. -/
def before (first second : Nat × Nat) : Bool :=
  first.1 * second.2 < second.1 * first.2

/-- The interval of a binary number holds everything that rounds to it, its ends included exactly
for an even mantissa. -/
structure Interval where
  lower : Nat × Nat
  value : Nat × Nat
  upper : Nat × Nat
  closed : Bool

/-- The interval reaches half a unit up and half a unit down, but only a quarter unit down at a
power of two. -/
def intervalOf (mantissa : Nat) (exponent : Int) : Interval where
  lower :=
    if mantissa = Nat.pow 2 (Binary64.precision - 1) && Binary64.minExponent < exponent then
      scaled (4 * mantissa - 1) 2 (exponent - 2)
    else scaled (4 * mantissa - 2) 2 (exponent - 2)
  value := scaled (4 * mantissa) 2 (exponent - 2)
  upper := scaled (4 * mantissa + 2) 2 (exponent - 2)
  closed := mantissa % 2 == 0

/-- A decimal belongs to an interval when it rounds to the interval's number. -/
def Interval.holds (interval : Interval) (decimal : Decimal) : Bool :=
  let point := scaled decimal.significand 10 decimal.exponent
  if interval.closed then !before point interval.lower && !before interval.upper point
  else before interval.lower point && before point interval.upper

/-- The place of a quotient is the power of ten of its first digit. -/
def placeOf (quotient : Nat × Nat) : Int :=
  let estimate : Int := (Binary64.digitCount quotient.1 : Int) - Binary64.digitCount quotient.2
  if before quotient (scaled 1 10 estimate) then estimate - 1 else estimate

/-- The decimal below a quotient on the grid of a power of ten is the whole part of the quotient
there. -/
def below (quotient : Nat × Nat) (exponent : Int) : Decimal where
  significand :=
    let unit := scaled 1 10 exponent
    (quotient.1 * unit.2) / (quotient.2 * unit.1)
  exponent := exponent

/-- Of a decimal and its successor on the grid, the nearer one is taken. -/
def nearer (tie : Tie) (quotient : Nat × Nat) (lower : Decimal) : Decimal :=
  let upper := { lower with significand := lower.significand + 1 }
  let middle := scaled (2 * lower.significand + 1) 10 lower.exponent
  let twice := (2 * quotient.1, quotient.2)
  if before twice middle then lower
  else if before middle twice then upper
  else match tie with
    | .up => upper
    | .toEven => if lower.significand % 2 = 0 then lower else upper

/-- A grid hits an interval with one of the two neighbours of the interval's number. -/
def hit? (tie : Tie) (interval : Interval) (exponent : Int) : Option Decimal :=
  let lower := below interval.value exponent
  let upper := { lower with significand := lower.significand + 1 }
  match interval.holds lower, interval.holds upper with
  | true, true => some (nearer tie interval.value lower)
  | true, false => some lower
  | false, true => some upper
  | false, false => none

/-- This function drops the zeros at the end of a significand. -/
def dropZeros : Nat → Decimal → Decimal
  | 0, decimal => decimal
  | fuel + 1, decimal =>
    if decimal.significand ≠ 0 && decimal.significand % 10 = 0 then
      dropZeros fuel ⟨decimal.significand / 10, decimal.exponent + 1⟩
    else decimal

/-- Seventeen digits always suffice to tell binary numbers apart. -/
def digitLimit : Nat := 17

/-- The shortest decimal lies on the coarsest grid that hits the interval. -/
def shortest (tie : Tie) (mantissa : Nat) (exponent : Int) : Decimal :=
  if mantissa = 0 then ⟨0, 0⟩
  else
    let interval := intervalOf mantissa exponent
    let place := placeOf interval.value
    let found := (List.range digitLimit).findSome? fun digits =>
      hit? tie interval (place - Int.ofNat digits)
    dropZeros (digitLimit + 1) (found.getD (below interval.value (place - digitLimit)))

end Decimal

end WorkflowBundle
