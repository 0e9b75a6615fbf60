/-
This file writes binary numbers as decimal text in the style a format asks for.
-/

import WorkflowBundle.Decimal.Shortest

namespace WorkflowBundle.Decimal

/-- A style fixes which exponents are written out in full, how a whole number ends, how an exponent
is written, and the texts of the numbers that are not finite. -/
structure Style where
  tie : Tie
  positional : Int → Bool
  wholeEnd : String
  positiveExponent : String
  nan : String
  infinite : String
  negativeInfinite : String

def digitsOf (number : Nat) : List Char :=
  Nat.toDigits 10 number

/-- The scientific exponent of a decimal belongs to its first digit. -/
def scientificExponent (decimal : Decimal) : Int :=
  decimal.exponent + (digitsOf decimal.significand).length - 1

/-- Written in full, a decimal has its digits before and after a point, with zeros where needed. -/
def writePositional (wholeEnd : String) (decimal : Decimal) : String :=
  let digits := digitsOf decimal.significand
  if 0 ≤ decimal.exponent then
    String.ofList (digits ++ List.replicate decimal.exponent.toNat '0') ++ wholeEnd
  else
    let places := (-decimal.exponent).toNat
    let padded := List.replicate (places + 1 - digits.length) '0' ++ digits
    String.ofList (padded.take (padded.length - places)) ++ "." ++
      String.ofList (padded.drop (padded.length - places))

/-- Written with an exponent, a decimal has one digit before the point. -/
def writeScientific (positiveExponent : String) (decimal : Decimal) : String :=
  let digits := digitsOf decimal.significand
  let exponent := scientificExponent decimal
  let fraction := digits.drop 1
  let mantissa := String.ofList (digits.take 1) ++
    if fraction.isEmpty then "" else "." ++ String.ofList fraction
  if exponent < 0 then mantissa ++ "e-" ++ toString exponent.natAbs
  else mantissa ++ positiveExponent ++ toString exponent.natAbs

/-- This function writes a binary number by its shortest decimal. -/
def Style.write (style : Style) : Binary64 → String
  | .nan => style.nan
  | .infinite negative => if negative then style.negativeInfinite else style.infinite
  | .finite negative mantissa exponent =>
    let decimal := shortest style.tie mantissa exponent
    let text :=
      if style.positional (scientificExponent decimal) then
        writePositional style.wholeEnd decimal
      else writeScientific style.positiveExponent decimal
    if negative then "-" ++ text else text

end WorkflowBundle.Decimal
