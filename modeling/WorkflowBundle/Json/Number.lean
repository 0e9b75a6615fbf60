/-
This file gives JSON numerals their values: integers of 64 bits, or binary numbers.
-/

import WorkflowBundle.Json.Basic
import WorkflowBundle.Decimal.Numeral

namespace WorkflowBundle.Json

/-- A number is an integer or a binary number. -/
inductive Number where
  | integer (value : Int)
  | binary (value : Binary64)

/-- The greatest significand that is kept exactly. -/
def significandLimit : Nat := Nat.pow 2 64 - 1

/-- Digits join a significand as long as it fits, and the number of those left over is counted. -/
def gather : Nat → List Char → Nat × Nat × Nat
  | significand, [] => (significand, 0, 0)
  | significand, character :: rest =>
    let next := significand * 10 + (character.toNat - '0'.toNat)
    if significandLimit < next then (significand, 0, rest.length + 1)
    else
      let (final, taken, left) := gather next rest
      (final, taken + 1, left)

/-- Powers of ten beyond this exponent are no finite binary numbers. -/
def powerLimit : Nat := 308

/-- The binary number of a power of ten is the nearest one. -/
def power (exponent : Nat) : Binary64 :=
  .ofDecimal false 1 exponent

/-- Dividing by a large power of ten takes several rounded divisions. -/
def shrink : Nat → Binary64 → Nat → Binary64
  | 0, number, _ => number
  | fuel + 1, number, exponent =>
    if exponent ≤ powerLimit then number.divide (power exponent)
    else if number == .zero false then number
    else shrink fuel (number.divide (power powerLimit)) (exponent - powerLimit)

/-- A significand and an exponent are a binary number by one multiplication or by divisions, each
rounded, and a number that becomes infinite is out of range. -/
def scale? (significand : Nat) (exponent : Int) : Option Binary64 :=
  let number := Binary64.ofInt significand
  if exponent < 0 then some (shrink 4 number exponent.natAbs)
  else if exponent.natAbs ≤ powerLimit then
    let product := number.multiply (power exponent.natAbs)
    if product.isFinite then some product else none
  else if significand = 0 then some number
  else none

/-- A numeral without fraction and exponent is an integer if it fits 64 bits and is not negative
zero. -/
def integer? (negative : Bool) (significand : Nat) : Option Int :=
  if negative then
    if significand = 0 || Nat.pow 2 63 < significand then none else some (-(significand : Int))
  else some significand

/-- The number of a numeral is absent when it is out of range. -/
def number? (numeral : String) : Option Number := do
  let (negative, magnitude) := Numeral.takeSign numeral.toList
  let parts ← Numeral.parts? magnitude
  let (significand, _, left) := gather 0 parts.whole
  let bare := magnitude.all Char.isDigit
  match integer? negative significand with
  | some integer =>
    if bare && left = 0 then some (.integer integer)
    else scaled negative significand left parts
  | none => scaled negative significand left parts
where
  /-- The fraction joins what the whole digits left of the significand. -/
  scaled (negative : Bool) (significand left : Nat) (parts : Numeral.Parts) : Option Number := do
    let (significand, taken, _) := gather significand parts.fraction
    let number ← scale? significand (parts.exponent + left - taken)
    some (.binary (if negative then number.negate else number))

end WorkflowBundle.Json
