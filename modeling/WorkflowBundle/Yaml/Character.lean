/-
This file names the classes of characters that the grammar of YAML distinguishes.
-/

import WorkflowBundle.Text.Search

namespace WorkflowBundle.Yaml

/-- Control characters other than tab and line breaks may not occur in a stream. -/
def isAllowed (character : Char) : Bool :=
  let code := character.toNat
  code == 0x09 || code == 0x0A || code == 0x0D || (0x20 ≤ code && code ≤ 0x7E) || code == 0x85 ||
    (0xA0 ≤ code && code ≤ 0xFFFD) || 0x10000 ≤ code

def isBlank (character : Char) : Bool :=
  character == ' ' || character == '\t'

def isBreak (character : Char) : Bool :=
  character == '\n' || character == '\r' || character == '\u0085' || character == '\u2028' ||
    character == '\u2029'

def isSpace (character : Char) : Bool :=
  isBlank character || isBreak character

/-- Names consist of ASCII letters, digits, underscores and hyphens. -/
def isWord (character : Char) : Bool :=
  character.isAlphanum || character == '_' || character == '-'

/-- These characters have a meaning inside flow collections. -/
def isFlowMark (character : Char) : Bool :=
  [',', '[', ']', '\x7b', '\x7d'].contains character

/-- A text starts with a space or is at its end. -/
def startsWithSpace (text : List Char) : Bool :=
  text.head?.all isSpace

/-- A document mark is three hyphens or three dots, and a space or the end follows it. -/
def isDocumentMark (text : List Char) : Bool :=
  (['-', '-', '-'].isPrefixOf text || ['.', '.', '.'].isPrefixOf text) &&
    startsWithSpace (text.drop 3)

/-- A break is kept as it is when it separates lines or paragraphs, and is a line feed
otherwise. -/
def normalBreak (character : Char) : Char :=
  if character == '\u2028' || character == '\u2029' then character else '\n'

end WorkflowBundle.Yaml
