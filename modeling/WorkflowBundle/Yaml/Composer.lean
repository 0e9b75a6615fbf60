/-
This file composes the nodes of a document from tokens.
-/

import WorkflowBundle.Yaml.Node
import WorkflowBundle.Yaml.Scanner

namespace WorkflowBundle.Yaml

/-- A composer holds the tokens that are left, the anchors by name, and what tag handles stand
for. -/
structure Composer where
  tokens : List Token
  anchors : List (String × Nat)
  handles : List (String × String)

/-- Composing changes a composer and may find a fault. -/
abbrev Compose := StateT Composer (Except Fault)

namespace Composer

/-- A problem is found at the next token. -/
def fail (problem : String) : Compose α := do
  throw ⟨problem, (← get).tokens.head?.map Token.location⟩

def peek : Compose (Option Lexeme) :=
  return (← get).tokens.head?.map Token.lexeme

def skip : Compose Unit :=
  modify fun composer => { composer with tokens := composer.tokens.tail }

/-- This function passes over the next token if it has a lexeme. -/
def accept (lexeme : Lexeme) : Compose Bool := do
  if (← peek) == some lexeme then
    skip
    return true
  else return false

/-- The next lexeme is one of some marks. -/
def nextIs (marks : List Lexeme) : Compose Bool :=
  return (← peek).any marks.contains

/-- An anchor is the next token or missing. -/
def readAnchor : Compose (Option String) := do
  match ← peek with
  | some (.anchor name) =>
    skip
    return some name
  | _ => return none

/-- A tag is the next token or missing, and its handle must be known. -/
def readTag : Compose (Option String) := do
  match ← peek with
  | some (.tag handle suffix) =>
    if handle.isEmpty then
      skip
      return some suffix
    else
      match (← get).handles.lookup handle with
      | some expansion =>
        skip
        return some (expansion ++ suffix)
      | none => fail "found undefined tag handle"
  | _ => return none

/-- An anchor and a tag come in either order. -/
def readProperties : Compose (Option String × Option String) := do
  match ← readAnchor with
  | some anchor => return (some anchor, ← readTag)
  | none =>
    let tag ← readTag
    if tag.isSome then return (← readAnchor, tag) else return (none, none)

/-- An anchor takes the number of names known so far, and a name that is used again stands for the
new number. -/
def numberAnchor (name : Option String) : Compose (Option Nat) := do
  match name with
  | none => return none
  | some name =>
    let anchors := (← get).anchors
    let number := anchors.length
    let others := anchors.filter fun known => known.1 != name
    modify fun composer => { composer with anchors := (name, number) :: others }
    return some number

/-- An alias needs an anchor of its name before it. -/
def readAlias (name : String) : Compose Node := do
  match (← get).anchors.lookup name with
  | some number =>
    skip
    return .alias number
  | none => fail "unknown anchor"

mutual

/-- A node has properties and a content, and either of them may be missing. -/
def readNode : Nat → Bool → Bool → Compose Node
  | 0, _, _ => fail "the nesting is too deep"
  | fuel + 1, block, indentless => do
    match ← peek with
    | some (.alias name) => readAlias name
    | _ =>
      let (name, tag) ← readProperties
      let anchor ← numberAnchor name
      match ← peek with
      | some .entry =>
        if indentless then return .sequence anchor tag (← readIndentless fuel)
        else readMissing anchor tag
      | some (.scalar style text) =>
        skip
        return .scalar anchor (tag.filter (· != "!")) style text
      | some .flowSequence =>
        skip
        return .sequence anchor tag (← readFlowItems fuel true)
      | some .flowMapping =>
        skip
        return .mapping anchor tag (← readFlowEntries fuel true)
      | some .blockSequence =>
        if block then
          skip
          return .sequence anchor tag (← readItems fuel)
        else readMissing anchor tag
      | some .blockMapping =>
        if block then
          skip
          return .mapping anchor tag (← readEntries fuel)
        else readMissing anchor tag
      | _ => readMissing anchor tag

/-- A content may only be missing behind a property. -/
def readMissing (anchor : Option Nat) (tag : Option String) : Compose Node :=
  if anchor.isSome || tag.isSome then return .scalar anchor tag .plain ""
  else fail "did not find expected node content"

/-- A node is missing where one of some marks comes next. -/
def readOptional : Nat → Bool → Bool → List Lexeme → Compose Node
  | 0, _, _, _ => fail "the nesting is too deep"
  | fuel + 1, block, indentless, marks => do
    if ← nextIs marks then return .missing else readNode fuel block indentless

/-- The entries of a block sequence follow hyphens. -/
def readItems : Nat → Compose (List Node)
  | 0 => fail "the nesting is too deep"
  | fuel + 1 => do
    if ← accept .entry then
      let item ← readOptional fuel true false [.entry, .blockEnd]
      return item :: (← readItems fuel)
    else if ← accept .blockEnd then return []
    else fail "did not find expected '-' indicator"

/-- A sequence at the indentation of its key ends with its last hyphen. -/
def readIndentless : Nat → Compose (List Node)
  | 0 => fail "the nesting is too deep"
  | fuel + 1 => do
    if ← accept .entry then
      let item ← readOptional fuel true false [.entry, .key, .value, .blockEnd]
      return item :: (← readIndentless fuel)
    else return []

/-- The entries of a block mapping are keys, each with a value or without. -/
def readEntries : Nat → Compose (List (Node × Node))
  | 0 => fail "the nesting is too deep"
  | fuel + 1 => do
    if ← accept .key then
      let key ← readOptional fuel true true [.key, .value, .blockEnd]
      let value ←
        if ← accept .value then readOptional fuel true true [.key, .value, .blockEnd]
        else pure .missing
      return (key, value) :: (← readEntries fuel)
    else if ← accept .blockEnd then return []
    else fail "did not find expected key"

/-- The items of a flow sequence are separated by commas, and an item may be a single pair. -/
def readFlowItems : Nat → Bool → Compose (List Node)
  | 0, _ => fail "the nesting is too deep"
  | fuel + 1, first => do
    if ← accept .flowSequenceEnd then return []
    if !first then
      unless ← accept .flowEntry do fail "did not find expected ',' or ']'"
    if ← accept .key then
      let pair ← readFlowPair fuel
      return .mapping none none [pair] :: (← readFlowItems fuel false)
    else if ← accept .flowSequenceEnd then return []
    else
      let item ← readNode fuel false false
      return item :: (← readFlowItems fuel false)

/-- A pair in a flow sequence has a key and a value. Where the key is missing, the mark in its
place is passed over. -/
def readFlowPair : Nat → Compose (Node × Node)
  | 0 => fail "the nesting is too deep"
  | fuel + 1 => do
    let key ←
      if ← nextIs [.value, .flowEntry, .flowSequenceEnd] then do
        skip
        pure .missing
      else readNode fuel false false
    let value ←
      if ← accept .value then readOptional fuel false false [.flowEntry, .flowSequenceEnd]
      else pure .missing
    return (key, value)

/-- The entries of a flow mapping are separated by commas, and an entry may be a key alone. -/
def readFlowEntries : Nat → Bool → Compose (List (Node × Node))
  | 0, _ => fail "the nesting is too deep"
  | fuel + 1, first => do
    if ← accept .flowMappingEnd then return []
    if !first then
      unless ← accept .flowEntry do fail "did not find expected ',' or '\x7d'"
    if ← accept .key then
      let key ← readOptional fuel false false [.value, .flowEntry, .flowMappingEnd]
      let value ←
        if ← accept .value then readOptional fuel false false [.flowEntry, .flowMappingEnd]
        else pure .missing
      return (key, value) :: (← readFlowEntries fuel false)
    else if ← accept .flowMappingEnd then return []
    else
      let key ← readNode fuel false false
      return (key, .missing) :: (← readFlowEntries fuel false)

end

/-- Every call takes a token or is followed by one that does, so that this many calls suffice. -/
def fuel : Compose Nat :=
  return 3 * (← get).tokens.length + 3

/-- The version of a stream is 1.1 or 1.2. -/
def isKnownVersion (major minor : Nat) : Bool :=
  major == 1 && (minor == 1 || minor == 2)

/-- Directives give a version or a handle. -/
def isDirective : Lexeme → Bool
  | .version .. | .tagDirective .. => true
  | _ => false

/-- The directives in front of a document give at most one version and each handle once. -/
def readDirectives : Nat → Bool → Compose Unit
  | 0, _ => return
  | left + 1, versioned => do
    match ← peek with
    | some (.version major minor) =>
      if versioned then fail "found duplicate %YAML directive"
      if !isKnownVersion major minor then fail "found incompatible YAML document"
      skip
      readDirectives left true
    | some (.tagDirective handle expansion) =>
      if ((← get).handles.lookup handle).isSome then fail "found duplicate %TAG directive"
      skip
      modify fun composer =>
        { composer with handles := composer.handles ++ [(handle, expansion)] }
      readDirectives left versioned
    | _ => return

/-- Two handles are known without a directive. -/
def knownHandles : List (String × String) := [("!", "!"), ("!!", "tag:yaml.org,2002:")]

/-- A document may start with directives and a mark, and is missing behind a mark where nothing
follows. -/
def readDocument : Compose Node := do
  let fuel ← fuel
  let directed := (← peek).any isDirective
  readDirectives fuel false
  modify fun composer => { composer with handles := composer.handles ++ knownHandles }
  match ← peek with
  | some .documentStart =>
    skip
    match ← peek with
    | none | some .documentStart | some .documentEnd => return .missing
    | some lexeme => if isDirective lexeme then return .missing else readNode fuel true false
  | _ =>
    if directed then fail "did not find expected <document start>" else readNode fuel true false

/-- Behind a document nothing may follow but marks of its end. -/
def readEnd : Compose Unit := do
  let rest := (← get).tokens.dropWhile fun token => token.lexeme == .documentEnd
  modify fun composer => { composer with tokens := rest }
  unless rest.isEmpty do fail "deserializing from YAML containing more than one document"

end Composer

/-- The tokens of a stream are the node of its only document, or of none at all. -/
def Node.ofTokens? (tokens : List Token) : Except Fault (Option Node) :=
  if tokens.isEmpty then .ok none
  else
    let composed : Compose Node := do
      let node ← Composer.readDocument
      Composer.readEnd
      return node
    (composed.run' ⟨tokens, [], []⟩).map some

/-- This function reads the document of a text. -/
def Node.parse (text : String) : Except Fault (Option Node) := do
  Node.ofTokens? (← tokens text)

end WorkflowBundle.Yaml
