/-
This file gives values to the nodes of a document.
-/

import WorkflowBundle.Yaml.Composer
import WorkflowBundle.Yaml.Resolve

namespace WorkflowBundle.Yaml

/-- Reading values counts the aliases that may still be followed, and may find a fault. -/
abbrev Read := StateT Nat (Except Fault)

namespace Read

def fail (problem : String) : Read α :=
  throw ⟨problem, none⟩

/-- An alias is followed to the node it stands for in a document. -/
def follow (document : Node) : Node → Read Node
  | .alias anchor => do
    match ← get with
    | 0 => fail "repetition limit exceeded"
    | left + 1 =>
      set left
      match document.anchored? anchor with
      | some node => return node
      | none => fail "unknown anchor"
  | node => return node

/-- A mark before a tag is dropped unless the tag is nothing else. -/
def dropMark (tag : String) : String :=
  match tag.toList with
  | '!' :: first :: rest => String.ofList (first :: rest)
  | _ => tag

/-- A tag that starts with a mark is the document's own. -/
def ownTag? (tag : Option String) : Option String :=
  (tag.filter fun text => text.toList.head? == some '!').map fun text => dropMark (dropMark text)

/-- The tags of the core schema have this beginning. -/
def coreTag (name : String) : String := "tag:yaml.org,2002:" ++ name

/-- A scalar that needs a certain kind of value has it or is at fault. -/
def required (kind : String) (value : Option Yaml) : Read Yaml :=
  match value with
  | some value => return value
  | none => fail ("invalid value, expected " ++ kind)

/-- A plain scalar is resolved. -/
def plain (text : String) : Read Yaml :=
  required "a number of 64 bits" (resolve? text)

/-- The value of a scalar with a core tag has the kind of the tag, and other scalars are plain or
strings. -/
def scalar (tag : Option String) (style : Style) (text : String) : Read Yaml :=
  if tag = some (coreTag "bool") then required "a boolean" ((boolean? text).map .boolean)
  else if tag = some (coreTag "int") then
    required "an integer" <|
      match integer? text.toList with
      | some (.fits value) => some (.integer value)
      | _ => none
  else if tag = some (coreTag "float") then required "a float" ((binary? text).map .binary)
  else if tag = some (coreTag "null") then
    required "null" (if isNull text then some .null else none)
  else if tag.isNone && style = .plain then plain text
  else return .string text

/-- No two keys of a mapping are the same. -/
def hasDistinctKeys : Mapping → Bool
  | [] => true
  | (key, _) :: rest => rest.all (fun other => !same key other.1) && hasDistinctKeys rest

def depthLimit : Nat := 128

/-- A value is read at a depth of collections that are still allowed inside it. -/
def value (document : Node) : Nat → Node → Read Yaml
  | depth, node => do
    match ← follow document node with
    | .scalar _ tag style text =>
      match ownTag? tag with
      | some own =>
        let content ← if style = .plain then plain text else pure (.string text)
        return .tagged own content
      | none => scalar tag style text
    | .sequence _ tag items =>
      match depth with
      | 0 => fail "recursion limit exceeded"
      | depth + 1 =>
        let read ← items.mapM (value document depth)
        return wrap tag (.sequence read)
    | .mapping _ tag entries =>
      match depth with
      | 0 => fail "recursion limit exceeded"
      | depth + 1 =>
        let read ← entries.mapM fun entry => do
          let key ← value document depth entry.1
          let content ← value document depth entry.2
          return (key, content)
        if hasDistinctKeys read then return wrap tag (.mapping read)
        else fail "duplicate entry"
    | .alias _ => fail "unknown anchor"
where
  /-- A tag of the document's own is put around a value. -/
  wrap (tag : Option String) (content : Yaml) : Yaml :=
    match ownTag? tag with
    | some own => .tagged own content
    | none => content

/-- A document allows a number of aliases in proportion to its size. -/
def run (document : Node) (read : Read α) : Except Fault α :=
  read.run' (100 * document.size)

end Read

/-- This function reads the value of a text, and a text without a document is null. -/
def parse (text : String) : Except Fault Yaml := do
  match ← Node.parse text with
  | none => return .null
  | some document => Read.run document (Read.value document Read.depthLimit document)

end WorkflowBundle.Yaml
