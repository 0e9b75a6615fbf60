/-
This file reads scalars between quotes.
-/

import WorkflowBundle.Decimal.Numeral
import WorkflowBundle.Yaml.Fold

namespace WorkflowBundle.Yaml.QuotedScalar

/-- The character behind a backslash stands for one character. -/
def simpleEscape? : Char → Option Char
  | '0' => some '\x00'
  | 'a' => some '\x07'
  | 'b' => some '\x08'
  | 't' | '\t' => some '\t'
  | 'n' => some '\n'
  | 'v' => some '\x0b'
  | 'f' => some '\x0c'
  | 'r' => some '\r'
  | 'e' => some '\x1b'
  | ' ' => some ' '
  | '"' => some '"'
  | '/' => some '/'
  | '\\' => some '\\'
  | 'N' => some '\u0085'
  | '_' => some '\u00a0'
  | 'L' => some '\u2028'
  | 'P' => some '\u2029'
  | _ => none

/-- These letters behind a backslash announce a number of hexadecimal digits. -/
def digitCount : Char → Nat
  | 'x' => 2
  | 'u' => 4
  | 'U' => 8
  | _ => 0

/-- A code point is a character unless it is a surrogate or too large. -/
def character? (code : Nat) : Option Char :=
  if (0xD800 ≤ code && code ≤ 0xDFFF) || 0x10FFFF < code then none else some (Char.ofNat code)

/-- An escape behind its backslash is a character and the number of characters it takes. -/
def escape? : List Char → Option (Char × Nat)
  | [] => none
  | letter :: rest =>
    match digitCount letter with
    | 0 => (simpleEscape? letter).map fun character => (character, 1)
    | count =>
      let digits := rest.take count
      if digits.length = count then do
        let code ← Numeral.natural? 16 digits
        let character ← character? code
        some (character, count + 1)
      else none

/-- A break behind a backslash takes one character or two. -/
def escapedBreak? : List Char → Option Nat
  | [] => none
  | character :: rest =>
    if isBreak character then
      some (if character == '\r' && rest.head? == some '\n' then 2 else 1)
    else none

/-- The words between the quotes are joined by the folded white space between them, and a document
mark may not start a line. Characters that an escape took are skipped. -/
def readFrom (single : Bool) :
    Nat → Nat → Fold → List Char → Except String (List Char × List Char)
  | _, _, _, [] => .error "found unexpected end of stream"
  | skip + 1, column, fold, _ :: rest => readFrom single skip column fold rest
  | 0, column, fold, character :: rest =>
    if column == 0 && isDocumentMark (character :: rest) then
      .error "found unexpected document indicator"
    else if isBreak character then
      let skip := if character == '\r' && rest.head? == some '\n' then 1 else 0
      readFrom single skip 0 (fold.addBreak character) rest
    else if isBlank character then readFrom single 0 (column + 1) (fold.addBlank character) rest
    else if single && character == '\'' then
      if rest.head? == some '\'' then
        (readFrom single 1 (column + 2) .empty rest).map fun (text, after) =>
          (fold.joined ++ '\'' :: text, after)
      else .ok (fold.joined, rest)
    else if !single && character == '"' then .ok (fold.joined, rest)
    else if !single && character == '\\' then
      match escapedBreak? rest, escape? rest with
      | some count, _ =>
        (readFrom single count 0 .escapedBreak rest).map fun (text, after) =>
          (fold.joined ++ text, after)
      | none, some (escaped, count) =>
        (readFrom single count (column + 1 + count) .empty rest).map fun (text, after) =>
          (fold.joined ++ escaped :: text, after)
      | none, none => .error "found unknown escape character"
    else
      (readFrom single 0 (column + 1) .empty rest).map fun (text, after) =>
        (fold.joined ++ character :: text, after)

/-- A quoted scalar is read from behind its opening quote, and yields its text and what follows the
closing quote. -/
def read (single : Bool) (column : Nat) (text : List Char) :
    Except String (List Char × List Char) :=
  readFrom single 0 column .empty text

end WorkflowBundle.Yaml.QuotedScalar
