/-
This file reads decimal numerals as natural numbers, integers and binary numbers.
-/

import WorkflowBundle.Decimal.Binary64

namespace WorkflowBundle.Numeral

/-- The value of a digit in a base is defined for the digits below the base. -/
def digitValue? (base : Nat) (character : Char) : Option Nat :=
  let value :=
    if character.isDigit then character.toNat - '0'.toNat
    else if 'a' ≤ character && character ≤ 'z' then character.toNat - 'a'.toNat + 10
    else if 'A' ≤ character && character ≤ 'Z' then character.toNat - 'A'.toNat + 10
    else base
  if value < base then some value else none

/-- The natural number of a digit list is defined when every digit is. -/
def naturalFrom? (base : Nat) : Nat → List Char → Option Nat
  | value, [] => some value
  | value, character :: rest =>
    (digitValue? base character).bind fun digit => naturalFrom? base (value * base + digit) rest

def natural? (base : Nat) (digits : List Char) : Option Nat :=
  if digits.isEmpty then none else naturalFrom? base 0 digits

def takeSign : List Char → Bool × List Char
  | '-' :: rest => (true, rest)
  | '+' :: rest => (false, rest)
  | text => (false, text)

/-- A numeral has whole digits, fraction digits and an exponent of ten. -/
structure Parts where
  whole : List Char
  fraction : List Char
  exponent : Int

def takeFraction : List Char → List Char × List Char
  | '.' :: rest => (rest.takeWhile Char.isDigit, rest.dropWhile Char.isDigit)
  | text => ([], text)

/-- An exponent is absent, or it is a mark, an optional sign and at least one digit. -/
def exponent? : List Char → Option Int
  | [] => some 0
  | mark :: rest =>
    if mark == 'e' || mark == 'E' then
      let (negative, digits) := takeSign rest
      (natural? 10 digits).map fun value => if negative then -(value : Int) else value
    else none

/-- The parts of a numeral without sign need a digit before or after the point. -/
def parts? (text : List Char) : Option Parts :=
  let whole := text.takeWhile Char.isDigit
  let (fraction, rest) := takeFraction (text.dropWhile Char.isDigit)
  if whole.isEmpty && fraction.isEmpty then none
  else (exponent? rest).map fun exponent => ⟨whole, fraction, exponent⟩

/-- The binary number of the parts is that of their exact decimal. -/
def Parts.toBinary64 (parts : Parts) (negative : Bool) : Binary64 :=
  .ofDecimal negative ((naturalFrom? 10 0 (parts.whole ++ parts.fraction)).getD 0)
    (parts.exponent - parts.fraction.length)

/-- A binary number is written as a numeral, or as a word for infinity or for no number in letters
of either case. -/
def binary64? (text : List Char) : Option Binary64 :=
  let (negative, magnitude) := takeSign text
  let word := String.ofList (magnitude.map Char.toLower)
  if word == "nan" then some .nan
  else if word == "inf" || word == "infinity" then some (.infinite negative)
  else (parts? magnitude).map fun parts => parts.toBinary64 negative

end WorkflowBundle.Numeral
