/-
This file divides XML text into events: tags, text, sections of character data and other markup.
-/

import WorkflowBundle.Text.Search

namespace WorkflowBundle.Xml

/-- White space of the markup is space, tab, carriage return or line feed. -/
def isSpace (character : Char) : Bool :=
  character == ' ' || character == '\t' || character == '\r' || character == '\n'

/-- An event is a piece of markup without its marks, or the text between two of them. -/
inductive Event where
  | opening (content : List Char)
  | empty (content : List Char)
  | closing (name : List Char)
  | text (content : List Char)
  | section (content : List Char)
  | comment (content : List Char)
  | doctype (content : List Char)
  | instruction (content : List Char)
deriving DecidableEq

/-- Markup can be unfinished or unknown. -/
inductive MarkupFault where
  | openComment
  | openSection
  | openDoctype
  | namelessDoctype
  | openInstruction
  | openTag
  | unknownMarkup
deriving DecidableEq

/-- A fault of the markup says which end was not found. -/
def MarkupFault.message : MarkupFault → String
  | .openComment => "syntax error: comment not closed: `-->` not found before end of input"
  | .openSection => "syntax error: CDATA not closed: `]]>` not found before end of input"
  | .openDoctype => "syntax error: DOCTYPE not closed: `>` not found before end of input"
  | .namelessDoctype =>
    "ill-formed document: `<!DOCTYPE>` declaration does not contain a name of a document type"
  | .openInstruction =>
    "syntax error: processing instruction or xml declaration not closed: " ++
      "`?>` not found before end of input"
  | .openTag => "syntax error: tag not closed: `>` not found before end of input"
  | .unknownMarkup => "syntax error: unknown or missed symbol in markup"

namespace Event

/-- A tag ends at a closing bracket outside of quotes. -/
def cutTag? : Option Char → List Char → Option (List Char × List Char)
  | _, [] => none
  | none, character :: rest =>
    if character == '>' then some ([], rest)
    else
      (cutTag? (if character == '\'' || character == '"' then some character else none) rest).map
        fun (before, after) => (character :: before, after)
  | some quote, character :: rest =>
    (cutTag? (if character == quote then none else some quote) rest).map
      fun (before, after) => (character :: before, after)

/-- A declaration ends where its brackets are balanced. -/
def cutDeclaration? : Nat → List Char → Option (List Char × List Char)
  | _, [] => none
  | balance, character :: rest =>
    match balance, character with
    | 0, '>' => some ([], rest)
    | balance + 1, '>' =>
      (cutDeclaration? balance rest).map fun (before, after) => ('>' :: before, after)
    | balance, '<' =>
      (cutDeclaration? (balance + 1) rest).map fun (before, after) => ('<' :: before, after)
    | balance, character =>
      (cutDeclaration? balance rest).map fun (before, after) => (character :: before, after)

/-- The content of a tag opens an element, and with a slash at its end the element is empty. -/
def ofTag (content : List Char) : Event :=
  if content.getLast? == some '/' then .empty content.dropLast else .opening content

/-- The name in a closing tag has no white space behind it, unless it is nothing else. -/
def ofClosingTag (content : List Char) : Event :=
  let name := (content.reverse.dropWhile isSpace).reverse
  .closing (if name.isEmpty then content else name)

/-- The name in an opening tag ends at the first white space. -/
def tagName (content : List Char) : List Char :=
  content.takeWhile fun character => !isSpace character

/-- A document type declaration starts with this word in letters of either case. -/
def doctypeWord : List Char := "doctype".toList

/-- A declaration is complete when a name follows the word. -/
def ofDeclaration (content : List Char) : Except MarkupFault Event :=
  let word := content.take doctypeWord.length
  let rest := content.drop doctypeWord.length
  if word.map Char.toLower != doctypeWord then .error .openDoctype
  else if rest.all isSpace then .error .namelessDoctype
  else .ok (.doctype rest)

/-- Markup is finished by its mark, or it is at fault. -/
def finish (fault : MarkupFault) (make : List Char → Event)
    (cut : Option (List Char × List Char)) : Except MarkupFault (Event × List Char) :=
  match cut with
  | some (content, rest) => .ok (make content, rest)
  | none => .error fault

/-- The kind of markup is told by the characters behind the opening bracket. -/
def ofMarkup : List Char → Except MarkupFault (Event × List Char)
  | '!' :: '-' :: '-' :: rest => finish .openComment .comment (Text.cut? "-->".toList rest)
  | '!' :: '-' :: _ => .error .openComment
  | '!' :: '[' :: 'C' :: 'D' :: 'A' :: 'T' :: 'A' :: '[' :: rest =>
    finish .openSection .section (Text.cut? "]]>".toList rest)
  | '!' :: '[' :: _ => .error .openSection
  | '!' :: rest =>
    if rest.head? == some 'd' || rest.head? == some 'D' then
      match cutDeclaration? 0 rest with
      | some (content, after) => (ofDeclaration content).map fun event => (event, after)
      | none => .error .openDoctype
    else .error .unknownMarkup
  | '?' :: rest =>
    if rest.head? == some '>' then .error .openInstruction
    else finish .openInstruction .instruction (Text.cut? "?>".toList rest)
  | '/' :: rest => finish .openTag ofClosingTag (cutTag? none rest)
  | rest => finish .openTag ofTag (cutTag? none rest)

end Event

/-- A placed event knows the byte offsets where the event before it ended, where it starts and where
it ends. -/
structure Placed where
  event : Event
  before : Nat
  start : Nat
  stop : Nat
deriving DecidableEq

/-- A document is read as its events, and as the fault that ends them and its offset, if any. -/
structure Events where
  placed : List Placed
  fault : Option (MarkupFault × Nat)

namespace Events

def prepend (first : Placed) (events : Events) : Events :=
  { events with placed := first :: events.placed }

/-- A declaration without a name is at fault at its end, and other faulty markup at its start. -/
def faultOffset (fault : MarkupFault) (start : Nat) (markup : List Char) : Nat :=
  match fault, Event.cutDeclaration? 0 markup with
  | .namelessDoctype, some (content, _) => start + 1 + Text.byteSize content
  | _, _ => start

/-- White space is skipped before each event, and text lasts until the next opening bracket. -/
def readWithin : Nat → Nat → List Char → Events
  | 0, _, _ => ⟨[], none⟩
  | fuel + 1, before, source =>
    let start := before + Text.byteSize (source.takeWhile isSpace)
    match source.dropWhile isSpace with
    | [] => ⟨[], none⟩
    | '<' :: markup =>
      match Event.ofMarkup markup with
      | .ok (event, rest) =>
        let stop := start + 1 + Text.byteSize markup - Text.byteSize rest
        (readWithin fuel stop rest).prepend ⟨event, before, start, stop⟩
      | .error fault => ⟨[], some (fault, faultOffset fault start markup)⟩
    | text =>
      let content := text.takeWhile (· != '<')
      let rest := text.dropWhile (· != '<')
      let stop := start + Text.byteSize content
      let trimmed := (content.reverse.dropWhile isSpace).reverse
      (readWithin fuel stop rest).prepend ⟨.text trimmed, before, start, stop⟩

/-- A text has fewer events than characters, and a byte order mark before them does not count. -/
def read (text : String) : Events :=
  let characters := match text.toList with
    | '\ufeff' :: rest => rest
    | characters => characters
  readWithin (characters.length + 1) 0 characters

end Events

end WorkflowBundle.Xml
