/-
This file resolves scalars without quotes: null, truth values, integers and binary numbers.
-/

import WorkflowBundle.Decimal.Numeral
import WorkflowBundle.Yaml.Basic

namespace WorkflowBundle.Yaml

def isNull (text : String) : Bool :=
  ["~", "null", "Null", "NULL"].contains text

def boolean? (text : String) : Option Bool :=
  if ["true", "True", "TRUE"].contains text then some true
  else if ["false", "False", "FALSE"].contains text then some false
  else none

/-- Digits with a zero in front are no number. -/
def hasIdleZero (text : List Char) : Bool :=
  match (match text with
    | '-' :: rest | '+' :: rest => rest
    | digits => digits) with
  | '0' :: digit :: rest => (digit :: rest).all Char.isDigit
  | _ => false

/-- Integers in base 16, 8 and 2 are marked by a zero and a letter. -/
def radixInteger? : List Char → Option Nat
  | '0' :: 'x' :: digits => Numeral.natural? 16 digits
  | '0' :: 'o' :: digits => Numeral.natural? 8 digits
  | '0' :: 'b' :: digits => Numeral.natural? 2 digits
  | _ => none

/-- A natural number may have a plus sign. -/
def natural? (text : List Char) : Option Nat :=
  let digits := match text with
    | '+' :: rest => rest
    | digits => digits
  (radixInteger? digits).or (if hasIdleZero text then none else Numeral.natural? 10 digits)

/-- A negative integer has a minus sign. -/
def negative? : List Char → Option Nat
  | '-' :: digits =>
    (radixInteger? digits).or
      (if hasIdleZero ('-' :: digits) then none else Numeral.natural? 10 digits)
  | _ => none

/-- An integer fits 64 bits, or it fits only 128 bits and is refused, or it is larger still. -/
inductive IntegerSize where
  | fits (value : Int)
  | refused
  | larger

/-- Natural numbers are without sign, and negative integers have one. -/
def integer? (text : List Char) : Option IntegerSize :=
  match natural? text, negative? text with
  | some value, _ =>
    some (if value < Nat.pow 2 64 then .fits value
      else if value < Nat.pow 2 128 then .refused
      else .larger)
  | none, some value =>
    some (if value ≤ Nat.pow 2 63 then .fits (-value)
      else if value ≤ Nat.pow 2 127 then .refused
      else .larger)
  | none, none => none

/-- Infinities and the number that is none are words behind a point. -/
def specialBinary? (text : String) : Option Binary64 :=
  if [".inf", ".Inf", ".INF", "+.inf", "+.Inf", "+.INF"].contains text then some (.infinite false)
  else if ["-.inf", "-.Inf", "-.INF"].contains text then some (.infinite true)
  else if [".nan", ".NaN", ".NAN"].contains text then some .nan
  else none

/-- Other binary numbers are numerals with at most one sign, and those beyond the finite ones are
no numbers. -/
def binary? (text : String) : Option Binary64 :=
  let signs := match text.toList with
    | '+' :: '+' :: _ | '+' :: '-' :: _ => false
    | _ => true
  (specialBinary? text).or <|
    if signs then (Numeral.binary64? text.toList).filter Binary64.isFinite else none

/-- The value of a plain scalar, unless it is an integer that is refused. -/
def resolve? (text : String) : Option Yaml :=
  if text.isEmpty || isNull text then some .null
  else
    match boolean? text, integer? text.toList with
    | some value, _ => some (.boolean value)
    | none, some (.fits value) => some (.integer value)
    | none, some .refused => none
    | none, _ =>
      if hasIdleZero text.toList then some (.string text)
      else
        match binary? text with
        | some value => some (.binary value)
        | none => some (.string text)

end WorkflowBundle.Yaml
