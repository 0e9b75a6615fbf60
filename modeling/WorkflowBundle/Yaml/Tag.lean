/-
This file reads the tags of nodes and the directives of a stream.
-/

import WorkflowBundle.Decimal.Numeral
import WorkflowBundle.Yaml.Cursor
import WorkflowBundle.Yaml.Token

namespace WorkflowBundle.Yaml.Tag

/-- These characters may occur in the suffix of a tag. -/
def isSuffixCharacter (character : Char) : Bool :=
  isWord character || ";/?:@&=+$.%!~*'()".toList.contains character

/-- A verbatim tag may also have commas and brackets. -/
def isVerbatimCharacter (character : Char) : Bool :=
  isSuffixCharacter character || character == ',' || character == '[' || character == ']'

/-- The bytes of percent escapes are taken until another character comes. -/
def percentBytes : List Char → Option (List UInt8 × List Char)
  | '%' :: first :: second :: rest => do
    let code ← Numeral.natural? 16 [first, second]
    let (bytes, after) ← percentBytes rest
    some (code.toUInt8 :: bytes, after)
  | '%' :: _ => none
  | text => some ([], text)

/-- Percent escapes in a row stand for the characters of their UTF-8 form. -/
def decodeWithin : Nat → List Char → Option (List Char)
  | 0, text => some text
  | _, [] => some []
  | fuel + 1, '%' :: rest => do
    let (bytes, after) ← percentBytes ('%' :: rest)
    let decoded ← String.fromUTF8? ⟨bytes.toArray⟩
    let more ← decodeWithin fuel after
    some (decoded.toList ++ more)
  | fuel + 1, character :: rest => (decodeWithin fuel rest).map (character :: ·)

/-- This function replaces the percent escapes of a suffix. -/
def decode (suffix : List Char) : Except String String :=
  match decodeWithin suffix.length suffix with
  | some decoded => .ok (String.ofList decoded)
  | none => .error "did not find URI escaped octet"

/-- A handle is an exclamation mark, perhaps followed by a word and a second mark. -/
def takeHandle (text : List Char) : Option (List Char × List Char) :=
  match text with
  | '!' :: rest =>
    let word := rest.takeWhile isWord
    match rest.dropWhile isWord with
    | '!' :: after => some ('!' :: word ++ ['!'], after)
    | after => some ('!' :: word, after)
  | _ => none

/-- A suffix consists of the characters of a class. -/
def takeSuffix (accepts : Char → Bool) (text : List Char) : List Char × List Char :=
  (text.takeWhile accepts, text.dropWhile accepts)

/-- A tag between angle brackets is taken as it is. -/
def readVerbatim (text : List Char) : Except String (Lexeme × List Char) := do
  let (suffix, rest) := takeSuffix isVerbatimCharacter text
  if suffix.isEmpty then throw "did not find expected tag URI"
  match rest with
  | '>' :: after => return (.tag "" (← decode suffix), after)
  | _ => throw "did not find the expected '>'"

/-- A short tag is a handle and a suffix. A mark and a word without a second mark are a suffix to
the mark alone, and the mark by itself is a tag of its own. -/
def readShort (text : List Char) : Except String (Lexeme × List Char) := do
  let (handle, rest) ← match takeHandle text with
    | some taken => pure taken
    | none => throw "did not find expected '!'"
  let (suffix, after) := takeSuffix isSuffixCharacter rest
  if 1 < handle.length && handle.getLast? == some '!' then
    if suffix.isEmpty then throw "did not find expected tag URI"
    return (.tag (String.ofList handle) (← decode suffix), after)
  else
    let whole := handle.drop 1 ++ (← decode suffix).toList
    if whole.isEmpty then return (.tag "" "!", after)
    else return (.tag "!" (String.ofList whole), after)

/-- A tag ends before white space, or before a comma inside a flow collection. -/
def read (flow : Bool) (text : List Char) : Except String (Lexeme × List Char) := do
  let (lexeme, rest) ← match text with
    | '!' :: '<' :: inner => readVerbatim inner
    | _ => readShort text
  if startsWithSpace rest || (flow && rest.head? == some ',') then return (lexeme, rest)
  else throw "did not find expected whitespace or line break"

/-- A version number has at most nine digits. -/
def takeNumber (text : List Char) : Except String (Nat × List Char) :=
  let digits := text.takeWhile Char.isDigit
  match Numeral.natural? 10 digits with
  | some number =>
    if digits.length ≤ 9 then .ok (number, text.dropWhile Char.isDigit)
    else .error "found extremely long version number"
  | none => .error "did not find expected version number"

/-- A version directive gives a major and a minor number. -/
def readVersion (text : List Char) : Except String (Lexeme × List Char) := do
  let (major, rest) ← takeNumber (text.dropWhile isBlank)
  match rest with
  | '.' :: after =>
    let (minor, after) ← takeNumber after
    return (.version major minor, after)
  | _ => throw "did not find expected digit or '.' character"

/-- A tag directive gives a handle and what it stands for. -/
def readTagDirective (text : List Char) : Except String (Lexeme × List Char) := do
  let (handle, rest) ← match takeHandle (text.dropWhile isBlank) with
    | some taken => pure taken
    | none => throw "did not find expected '!'"
  if handle.length ≠ 1 && handle.getLast? ≠ some '!' then throw "did not find expected '!'"
  if !(rest.head?.any isBlank) then throw "did not find expected whitespace"
  let (expansion, after) := takeSuffix isVerbatimCharacter (rest.dropWhile isBlank)
  if expansion.isEmpty then throw "did not find expected tag URI"
  if !startsWithSpace after then throw "did not find expected whitespace or line break"
  return (.tagDirective (String.ofList handle) (← decode expansion), after)

/-- A directive is read from behind its percent sign to its last character that is no blank. -/
def readDirective (text : List Char) : Except String (Lexeme × List Char) := do
  let name := String.ofList (text.takeWhile isWord)
  let rest := text.dropWhile isWord
  if name.isEmpty then throw "could not find expected directive name"
  if !startsWithSpace rest then throw "found unexpected non-alphabetical character"
  match name with
  | "YAML" => readVersion rest
  | "TAG" => readTagDirective rest
  | _ => throw "found unknown directive name"

end WorkflowBundle.Yaml.Tag
