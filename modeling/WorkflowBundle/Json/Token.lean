/-
This file divides JSON text into tokens.
-/

import WorkflowBundle.Json.Basic
import WorkflowBundle.Decimal.Numeral

namespace WorkflowBundle.Json

/-- A token is a mark of the structure or a whole scalar. -/
inductive Token where
  | openArray
  | closeArray
  | openObject
  | closeObject
  | comma
  | colon
  | scalar (value : Json)

/-- White space between tokens is space, tab, line feed or carriage return. -/
def isSpace (character : Char) : Bool :=
  character == ' ' || character == '\t' || character == '\n' || character == '\r'

/-- Four hexadecimal digits are a 16-bit unit. -/
def unit? (digits : List Char) : Option Nat :=
  Numeral.natural? 16 digits

def isLeading (unit : Nat) : Bool := 0xD800 ≤ unit && unit < 0xDC00

def isTrailing (unit : Nat) : Bool := 0xDC00 ≤ unit && unit < 0xE000

/-- A surrogate pair stands for one character outside the basic plane. -/
def pairCharacter (leading trailing : Nat) : Char :=
  Char.ofNat (0x10000 + (leading - 0xD800) * 0x400 + (trailing - 0xDC00))

/-- The character after a backslash stands for itself or for a control character. -/
def simpleEscape? : Char → Option Char
  | '"' => some '"'
  | '\\' => some '\\'
  | '/' => some '/'
  | 'b' => some '\x08'
  | 'f' => some '\x0c'
  | 'n' => some '\n'
  | 'r' => some '\r'
  | 't' => some '\t'
  | _ => none

/-- Reading a text behind its opening quote yields its characters and what follows the closing
quote. -/
def readText : List Char → Option (List Char × List Char)
  | [] => none
  | '"' :: rest => some ([], rest)
  | '\\' :: 'u' :: a :: b :: c :: d :: '\\' :: 'u' :: e :: f :: g :: h :: rest => do
    let first ← unit? [a, b, c, d]
    let second ← unit? [e, f, g, h]
    if isLeading first then
      if isTrailing second then
        let (characters, after) ← readText rest
        some (pairCharacter first second :: characters, after)
      else none
    else if isTrailing first then none
    else
      let (characters, after) ← readText ('\\' :: 'u' :: e :: f :: g :: h :: rest)
      some (Char.ofNat first :: characters, after)
  | '\\' :: 'u' :: a :: b :: c :: d :: rest => do
    let unit ← unit? [a, b, c, d]
    if isLeading unit || isTrailing unit then none
    else
      let (characters, after) ← readText rest
      some (Char.ofNat unit :: characters, after)
  | '\\' :: character :: rest => do
    let escaped ← simpleEscape? character
    let (characters, after) ← readText rest
    some (escaped :: characters, after)
  | character :: rest => do
    if character.toNat < 0x20 || character == '\\' then none
    else
      let (characters, after) ← readText rest
      some (character :: characters, after)

/-- Digits that must be there are taken with the mark before them. -/
def takeDigits? (mark : List Char) (text : List Char) : Option (List Char × List Char) :=
  let digits := text.takeWhile Char.isDigit
  if digits.isEmpty then none else some (mark ++ digits, text.dropWhile Char.isDigit)

/-- A fraction is a point and digits, or nothing. -/
def takeFraction? : List Char → Option (List Char × List Char)
  | '.' :: rest => takeDigits? ['.'] rest
  | text => some ([], text)

/-- An exponent is a mark, an optional sign and digits, or nothing. -/
def takeExponent? : List Char → Option (List Char × List Char)
  | mark :: rest =>
    if mark == 'e' || mark == 'E' then
      match rest with
      | '+' :: digits => takeDigits? [mark, '+'] digits
      | '-' :: digits => takeDigits? [mark, '-'] digits
      | digits => takeDigits? [mark] digits
    else some ([], mark :: rest)
  | [] => some ([], [])

/-- A zero stands alone before the point. -/
def hasLeadingZero : List Char → Bool
  | '0' :: _ :: _ => true
  | _ => false

/-- A numeral has whole digits without a leading zero, then a fraction, then an exponent. -/
def takeMagnitude? (text : List Char) : Option (List Char × List Char) := do
  let (whole, rest) ← takeDigits? [] text
  if hasLeadingZero whole then none
  else
    let (fraction, rest) ← takeFraction? rest
    let (exponent, rest) ← takeExponent? rest
    some (whole ++ fraction ++ exponent, rest)

/-- A numeral may start with a minus sign. -/
def takeNumeral? : List Char → Option (List Char × List Char)
  | '-' :: rest => (takeMagnitude? rest).map fun (digits, after) => ('-' :: digits, after)
  | text => takeMagnitude? text

/-- The first token of a text that does not start with white space, and the rest behind it. -/
def nextToken? : List Char → Option (Token × List Char)
  | '[' :: rest => some (.openArray, rest)
  | ']' :: rest => some (.closeArray, rest)
  | '\x7b' :: rest => some (.openObject, rest)
  | '\x7d' :: rest => some (.closeObject, rest)
  | ',' :: rest => some (.comma, rest)
  | ':' :: rest => some (.colon, rest)
  | 'n' :: 'u' :: 'l' :: 'l' :: rest => some (.scalar .null, rest)
  | 't' :: 'r' :: 'u' :: 'e' :: rest => some (.scalar (.boolean true), rest)
  | 'f' :: 'a' :: 'l' :: 's' :: 'e' :: rest => some (.scalar (.boolean false), rest)
  | '"' :: rest =>
    (readText rest).map fun (characters, after) =>
      (.scalar (.string (String.ofList characters)), after)
  | text =>
    (takeNumeral? text).map fun (written, after) =>
      (.scalar (.numeral (String.ofList written)), after)

/-- The tokens of a text are read one after the other, and each takes at least one character. -/
def tokensWithin : Nat → List Char → Option (List Token)
  | 0, text => if (text.dropWhile isSpace).isEmpty then some [] else none
  | fuel + 1, text =>
    let start := text.dropWhile isSpace
    if start.isEmpty then some []
    else do
      let (token, rest) ← nextToken? start
      let more ← tokensWithin fuel rest
      some (token :: more)

/-- A text has at most as many tokens as characters. -/
def tokens? (text : String) : Option (List Token) :=
  tokensWithin text.toList.length text.toList

end WorkflowBundle.Json
