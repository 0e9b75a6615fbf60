/-
This file divides a stream into tokens, with the indentation and the keys that a token settles.
-/

import WorkflowBundle.Yaml.BlockScalar
import WorkflowBundle.Yaml.PlainScalar
import WorkflowBundle.Yaml.QuotedScalar
import WorkflowBundle.Yaml.Tag

namespace WorkflowBundle.Yaml

/-- A candidate is the place of a token that becomes a key if a colon follows on its line. It is
required when nothing but a key may stand there. -/
structure Candidate where
  required : Bool
  place : Nat
  cursor : Cursor

/-- A scanner holds the rest of the stream, the indentation with those around it, whether a key may
come next, a possible key for each flow level, and the tokens so far. -/
structure Scanner where
  cursor : Cursor
  indent : Int
  outer : List Int
  keyAllowed : Bool
  candidate : Option Candidate
  levels : List (Option Candidate)
  tokens : Array Token

namespace Scanner

def start (text : List Char) : Scanner :=
  ⟨.start text, -1, [], true, none, [], #[]⟩

def inFlow (scanner : Scanner) : Bool :=
  !scanner.levels.isEmpty

def fault (scanner : Scanner) (problem : String) : Fault :=
  ⟨problem, some scanner.cursor.location⟩

def push (scanner : Scanner) (lexeme : Lexeme) : Scanner :=
  { scanner with tokens := scanner.tokens.push ⟨lexeme, scanner.cursor.location⟩ }

def insert (scanner : Scanner) (place : Nat) (lexeme : Lexeme) (location : Location) : Scanner :=
  { scanner with tokens := scanner.tokens.insertIdxIfInBounds place ⟨lexeme, location⟩ }

def moveTo (scanner : Scanner) (rest : List Char) : Scanner :=
  { scanner with cursor := scanner.cursor.moveTo rest }

def advance (scanner : Scanner) (count : Nat) : Scanner :=
  { scanner with cursor := scanner.cursor.advance count }

/-- A candidate is live on its own line, for 1024 characters. -/
def isLive (scanner : Scanner) (candidate : Candidate) : Bool :=
  candidate.cursor.line == scanner.cursor.line &&
    scanner.cursor.index ≤ candidate.cursor.index + 1024

/-- A candidate is given up, unless it is required. -/
def dropCandidate (scanner : Scanner) : Except Fault Scanner :=
  match scanner.candidate with
  | some candidate =>
    if candidate.required then .error (scanner.fault "could not find expected ':'")
    else .ok { scanner with candidate := none }
  | none => .ok scanner

/-- A candidate that is no longer live is given up. -/
def dropStale (scanner : Scanner) : Except Fault Scanner :=
  match scanner.candidate with
  | some candidate => if scanner.isLive candidate then .ok scanner else scanner.dropCandidate
  | none => .ok scanner

/-- The next token becomes a candidate where a key is allowed, and is required at the indentation of
a block collection. -/
def saveCandidate (scanner : Scanner) : Except Fault Scanner :=
  if scanner.keyAllowed then do
    let scanner ← scanner.dropCandidate
    let required := !scanner.inFlow && scanner.indent == scanner.cursor.column
    return { scanner with
      candidate := some ⟨required, scanner.tokens.size, scanner.cursor⟩ }
  else .ok scanner

/-- A column beyond the indentation opens a block collection, at the end of the tokens or at an
earlier place. -/
def indentTo (scanner : Scanner) (column : Nat) (place : Nat) (lexeme : Lexeme)
    (location : Location) : Scanner :=
  if scanner.inFlow || column ≤ scanner.indent then scanner
  else
    { scanner.insert place lexeme location with
      indent := column, outer := scanner.indent :: scanner.outer }

/-- Every block collection beyond a column is closed. -/
def closeBlocks (scanner : Scanner) (column : Int) : Scanner :=
  if scanner.inFlow then scanner
  else
    let deeper := (scanner.indent :: scanner.outer).takeWhile (column < ·)
    let closed := deeper.foldl (fun current _ => current.push .blockEnd) scanner
    match (scanner.indent :: scanner.outer).drop deeper.length with
    | indent :: outer => { closed with indent, outer }
    | [] => { closed with indent := -1, outer := [] }

/-- The space before a token is blanks, comments and breaks. A tab is no indentation, and behind a
break a key is allowed outside of flow collections. -/
def skipSpaceWithin : Nat → Scanner → Scanner
  | 0, scanner => scanner
  | fuel + 1, scanner =>
    let tabs := scanner.inFlow || !scanner.keyAllowed
    let cursor := (scanner.cursor.skipWhile fun character =>
      character == ' ' || (tabs && character == '\t')).skipComment
    if cursor.rest.head?.any isBreak then
      skipSpaceWithin fuel
        { scanner with
          cursor := cursor.skipBreak, keyAllowed := scanner.keyAllowed || !scanner.inFlow }
    else { scanner with cursor }

/-- There are at most as many breaks as characters. -/
def skipSpace (scanner : Scanner) : Scanner :=
  skipSpaceWithin (scanner.cursor.rest.length + 1) scanner

/-- A read part of the stream yields its lexeme, or its problem at the cursor. -/
def readToken (scanner : Scanner) (read : Except String (Lexeme × List Char)) :
    Except Fault Scanner :=
  match read with
  | .ok (lexeme, rest) => .ok ((scanner.push lexeme).moveTo rest)
  | .error problem => .error (scanner.fault problem)

/-- Directives and document marks close all blocks. -/
def closeDocument (scanner : Scanner) : Except Fault Scanner := do
  let scanner ← (scanner.closeBlocks (-1)).dropCandidate
  return { scanner with keyAllowed := false }

/-- A directive takes a line of its own, up to a comment. -/
def readDirective (scanner : Scanner) : Except Fault Scanner := do
  let scanner ← scanner.closeDocument
  let scanner ← scanner.readToken (Tag.readDirective (scanner.cursor.rest.drop 1))
  let cursor := (scanner.cursor.skipWhile isBlank).skipComment
  if cursor.rest.head?.all isBreak then return { scanner with cursor := cursor.skipBreak }
  else throw (scanner.fault "did not find expected comment or line break")

/-- A document mark has three characters. -/
def readDocumentMark (scanner : Scanner) (lexeme : Lexeme) : Except Fault Scanner := do
  let scanner ← scanner.closeDocument
  return (scanner.push lexeme).advance 3

/-- A flow collection may be a key, and keys are allowed in it. -/
def openFlow (scanner : Scanner) (lexeme : Lexeme) : Except Fault Scanner := do
  let scanner ← scanner.saveCandidate
  return ({ scanner with
    levels := scanner.candidate :: scanner.levels
    candidate := none
    keyAllowed := true }.push lexeme).advance 1

/-- The end of a flow collection returns to the candidate outside of it. -/
def closeFlow (scanner : Scanner) (lexeme : Lexeme) : Except Fault Scanner := do
  let scanner ← scanner.dropCandidate
  let scanner := match scanner.levels with
    | candidate :: levels => { scanner with candidate, levels }
    | [] => scanner
  return ({ scanner with keyAllowed := false }.push lexeme).advance 1

/-- A comma allows a key behind it. -/
def readFlowEntry (scanner : Scanner) : Except Fault Scanner := do
  let scanner ← scanner.dropCandidate
  return ({ scanner with keyAllowed := true }.push .flowEntry).advance 1

/-- A mark of a block collection needs a place where a key is allowed. -/
def openBlock (scanner : Scanner) (lexeme : Lexeme) (problem : String) : Except Fault Scanner :=
  if scanner.inFlow then .ok scanner
  else if scanner.keyAllowed then
    .ok (scanner.indentTo scanner.cursor.column scanner.tokens.size lexeme
      scanner.cursor.location)
  else .error (scanner.fault problem)

/-- A hyphen starts an entry of a block sequence. -/
def readBlockEntry (scanner : Scanner) : Except Fault Scanner := do
  let scanner ← scanner.openBlock .blockSequence
    "block sequence entries are not allowed in this context"
  let scanner ← scanner.dropCandidate
  return ({ scanner with keyAllowed := true }.push .entry).advance 1

def readKey (scanner : Scanner) : Except Fault Scanner := do
  let scanner ← scanner.openBlock .blockMapping "mapping keys are not allowed in this context"
  let scanner ← scanner.dropCandidate
  return ({ scanner with keyAllowed := !scanner.inFlow }.push .key).advance 1

/-- A colon makes a live candidate a key, and otherwise starts a value without one. -/
def readValue (scanner : Scanner) : Except Fault Scanner := do
  let scanner ← scanner.dropStale
  match scanner.candidate with
  | some candidate =>
    let location := candidate.cursor.location
    let keyed := (scanner.insert candidate.place .key location).indentTo candidate.cursor.column
      candidate.place .blockMapping location
    return ({ keyed with candidate := none, keyAllowed := false }.push .value).advance 1
  | none =>
    let scanner ← scanner.openBlock .blockMapping "mapping values are not allowed in this context"
    return ({ scanner with keyAllowed := !scanner.inFlow }.push .value).advance 1

/-- The name of an anchor is a word that white space or a mark ends. -/
def anchorName (text : List Char) : Except String (String × List Char) :=
  let name := text.takeWhile isWord
  let rest := text.dropWhile isWord
  if name.isEmpty || !(rest.head?.all fun character =>
      isSpace character || "?:,]\x7d%@`".toList.contains character) then
    .error "did not find expected alphabetic or numeric character"
  else .ok (String.ofList name, rest)

/-- A property of a node, or a scalar in one line, may be a key. -/
def readNode (scanner : Scanner) (read : Except String (Lexeme × List Char)) :
    Except Fault Scanner := do
  let scanner ← scanner.saveCandidate
  readToken { scanner with keyAllowed := false } read

/-- A block scalar is no key, and a key may follow it. -/
def readBlockScalar (scanner : Scanner) (folded : Bool) : Except Fault Scanner := do
  let scanner ← scanner.dropCandidate
  let outer := scanner.indent
  let scanner := { scanner with keyAllowed := true }
  match BlockScalar.readHeader (scanner.cursor.rest.drop 1) with
  | .error problem => throw (scanner.fault problem)
  | .ok (header, rest) =>
    let cursor := ((scanner.cursor.moveTo rest).skipWhile isBlank).skipComment
    if cursor.rest.head?.all isBreak then
      readToken { scanner with cursor := cursor.skipBreak } <|
        (BlockScalar.read folded header outer cursor.skipBreak.rest).map fun (text, after) =>
          (.scalar (if folded then .other else .literal) (String.ofList text), after)
    else throw (scanner.fault "did not find expected comment or line break")

/-- A quoted scalar may be a key. -/
def readQuoted (scanner : Scanner) (single : Bool) : Except Fault Scanner :=
  scanner.readNode <|
    (QuotedScalar.read single (scanner.cursor.column + 1) (scanner.cursor.rest.drop 1)).map
      fun (text, after) => (.scalar .other (String.ofList text), after)

/-- A plain scalar may be a key, and behind a break a key is allowed again. -/
def readPlain (scanner : Scanner) : Except Fault Scanner := do
  let scanner ← scanner.saveCandidate
  match PlainScalar.read scanner.inFlow (scanner.indent + 1).toNat scanner.cursor.column
      scanner.cursor.rest with
  | .ok scalar =>
    let read := scanner.push (.scalar .plain (String.ofList scalar.text))
    return { read.moveTo scalar.rest with keyAllowed := scalar.broken }
  | .error problem => throw (scanner.fault problem)

/-- These characters start no plain scalar. -/
def isIndicator (character : Char) : Bool :=
  "-?:,[]\x7b\x7d#&*!|>'\"%@`".toList.contains character

/-- A hyphen before anything but a blank, and a question mark or colon before anything but white
space, start a plain scalar outside of flow collections. -/
def startsPlain (scanner : Scanner) : Bool :=
  match scanner.cursor.rest with
  | [] => false
  | first :: rest =>
    !(isSpace first || isIndicator first) || (first == '-' && !(rest.head?.any isBlank)) ||
      (!scanner.inFlow && (first == '?' || first == ':') && !startsWithSpace rest)

/-- The next token of a stream that is not at its end is told by its first characters. -/
def readNext (scanner : Scanner) : Except Fault Scanner :=
  let text := scanner.cursor.rest
  let atStart := scanner.cursor.column == 0
  let marked := scanner.inFlow || startsWithSpace (text.drop 1)
  match text.headD ' ' with
  | '%' => if atStart then scanner.readDirective else plain
  | '[' => scanner.openFlow .flowSequence
  | '\x7b' => scanner.openFlow .flowMapping
  | ']' => scanner.closeFlow .flowSequenceEnd
  | '\x7d' => scanner.closeFlow .flowMappingEnd
  | ',' => scanner.readFlowEntry
  | '-' =>
    if atStart && isDocumentMark text then scanner.readDocumentMark .documentStart
    else if startsWithSpace (text.drop 1) then scanner.readBlockEntry
    else plain
  | '.' =>
    if atStart && isDocumentMark text then scanner.readDocumentMark .documentEnd else plain
  | '?' => if marked then scanner.readKey else plain
  | ':' => if marked then scanner.readValue else plain
  | '*' =>
    scanner.readNode ((anchorName (text.drop 1)).map fun (name, rest) => (.alias name, rest))
  | '&' =>
    scanner.readNode ((anchorName (text.drop 1)).map fun (name, rest) => (.anchor name, rest))
  | '!' => scanner.readNode (Tag.read scanner.inFlow text)
  | '|' => if scanner.inFlow then plain else scanner.readBlockScalar false
  | '>' => if scanner.inFlow then plain else scanner.readBlockScalar true
  | '\'' => scanner.readQuoted true
  | '"' => scanner.readQuoted false
  | _ => plain
where
  /-- Anything else is a plain scalar or no token at all. -/
  plain : Except Fault Scanner :=
    if scanner.startsPlain then scanner.readPlain
    else .error (scanner.fault "found character that cannot start any token")

/-- The end of a stream closes all blocks. -/
def finish (scanner : Scanner) : Except Fault (List Token) := do
  let scanner ← (scanner.closeBlocks (-1)).dropCandidate
  return scanner.tokens.toList

/-- Every token takes at least one character. -/
def scanWithin : Nat → Scanner → Except Fault (List Token)
  | 0, scanner => scanner.finish
  | fuel + 1, scanner => do
    let scanner ← scanner.skipSpace.dropStale
    if scanner.cursor.rest.isEmpty then scanner.finish
    else
      let scanner ← (scanner.closeBlocks scanner.cursor.column).readNext
      scanWithin fuel scanner

end Scanner

/-- The tokens of a text come after a byte order mark and need every character to be allowed. -/
def tokens (text : String) : Except Fault (List Token) :=
  let characters := match text.toList with
    | '\ufeff' :: rest => rest
    | characters => characters
  match characters.dropWhile isAllowed with
  | [] => Scanner.scanWithin (characters.length + 1) (.start characters)
  | refused =>
    let place := (Cursor.start characters).moveTo refused
    .error ⟨"control characters are not allowed", some place.location⟩

end WorkflowBundle.Yaml
