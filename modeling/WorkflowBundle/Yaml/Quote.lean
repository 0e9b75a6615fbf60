/-
This file writes strings as YAML scalars: plain where that is possible, between quotes, or as
literal lines.
-/

import WorkflowBundle.Yaml.Character
import WorkflowBundle.Yaml.Resolve

namespace WorkflowBundle.Yaml

/-- A printable character stands for itself in any scalar. -/
def isPrintable (character : Char) : Bool :=
  let code := character.toNat
  code == 0x0A || (0x20 ≤ code && code ≤ 0x7E) ||
    (0xA0 ≤ code && code ≤ 0xFFFD && code != 0xFEFF)

/-- These characters at the start of a scalar mean something else. -/
def isOpeningMark (character : Char) : Bool :=
  "#,[]\x7b\x7d&*!|>'\"%@`".toList.contains character

/-- A plain scalar does not start with a mark of the structure. -/
def opensPlain : List Char → Bool
  | [] => false
  | character :: rest =>
    !isOpeningMark character &&
      !(['?', ':', '-'].contains character && startsWithSpace rest) &&
      !(['-', '-', '-'].isPrefixOf (character :: rest)) &&
      !(['.', '.', '.'].isPrefixOf (character :: rest))

/-- Behind its first character a plain scalar has no colon before white space and no number sign
behind it. -/
def staysPlain : List Char → Bool
  | previous :: character :: rest =>
    !(character == ':' && startsWithSpace rest) && !(character == '#' && isSpace previous) &&
      staysPlain (character :: rest)
  | _ => true

/-- A plain scalar has printable characters, no breaks, and no space at its ends. -/
def canBePlain (text : List Char) : Bool :=
  opensPlain text && staysPlain text && text.all isPrintable && !text.any isBreak &&
    text.head? != some ' ' && text.getLast? != some ' '

/-- A string needs quotes when it would be read as another kind of value. -/
def isAmbiguous (text : String) : Bool :=
  hasIdleZero text.toList ||
    match resolve? text with
    | some (.string _) => false
    | _ => true

/-- Between single quotes a quote is written twice. -/
def singleQuoted (text : List Char) : String :=
  String.ofList ('\'' :: (text.flatMap fun character =>
    if character == '\'' then ['\'', '\''] else [character]) ++ ['\''])

def hexadecimal (count number : Nat) : List Char :=
  (List.range count).reverse.map fun place =>
    ((Nat.toDigits 16 ((number >>> (4 * place)) % 16)).headD '0').toUpper

/-- A character that cannot stand for itself is written as an escape. -/
def escape (character : Char) : List Char :=
  match character with
  | '\x00' => ['\\', '0']
  | '\x07' => ['\\', 'a']
  | '\x08' => ['\\', 'b']
  | '\t' => ['\\', 't']
  | '\n' => ['\\', 'n']
  | '\x0b' => ['\\', 'v']
  | '\x0c' => ['\\', 'f']
  | '\r' => ['\\', 'r']
  | '\x1b' => ['\\', 'e']
  | '"' => ['\\', '"']
  | '\\' => ['\\', '\\']
  | '\u0085' => ['\\', 'N']
  | '\u2028' => ['\\', 'L']
  | '\u2029' => ['\\', 'P']
  | character =>
    let code := character.toNat
    if isPrintable character then [character]
    else if code ≤ 0xFF then '\\' :: 'x' :: hexadecimal 2 code
    else if code ≤ 0xFFFF then '\\' :: 'u' :: hexadecimal 4 code
    else '\\' :: 'U' :: hexadecimal 8 code

/-- Between double quotes every character can be written. -/
def doubleQuoted (text : List Char) : String :=
  String.ofList ('"' :: text.flatMap escape ++ ['"'])

/-- A string on one line is plain unless that is impossible or ambiguous, and single quotes are
preferred. -/
def quoteLine (text : String) : String :=
  let characters := text.toList
  if !isAmbiguous text && canBePlain characters then text
  else if characters.all isPrintable && !characters.any isBreak then singleQuoted characters
  else doubleQuoted characters

/-- A blank at the end of a line would be lost in literal lines. -/
def hasTrailingBlank : List Char → Bool
  | [] => false
  | [character] => character == ' '
  | character :: next :: rest =>
    (character == ' ' && isBreak next) || hasTrailingBlank (next :: rest)

/-- A string of several lines is literal when its characters are printable and no line ends with a
blank. -/
def canBeLiteral (text : List Char) : Bool :=
  text.all isPrintable && !hasTrailingBlank text

/-- The header of literal lines gives the indentation where the text starts with white space, and
says how the text ends. -/
def literalHeader (text : List Char) : String :=
  let indentation := if text.head?.any fun first => first == ' ' || isBreak first then "2" else ""
  let ending := match text.reverse with
    | '\n' :: '\n' :: _ | ['\n'] => "+"
    | '\n' :: _ => ""
    | _ => "-"
  "|" ++ indentation ++ ending

/-- The lines of a literal text end with their breaks. -/
def literalLines (text : List Char) : List String :=
  let lines := Text.pieces (· == '\n') text
  (if lines.getLast? == some [] then lines.dropLast else lines).map String.ofList

end WorkflowBundle.Yaml
