/-
This file reads XML text as a tree of elements, with every character of its texts.
-/

import WorkflowBundle.Proofs.Xml.Markup

namespace WorkflowBundle.Xml

/-- A node is a text, or an element with its name, its attributes and the nodes in it. -/
inductive Node where
  | text (content : List Char)
  | element (name : List Char) (attributes : List (List Char × List Char)) (children : List Node)

namespace Node

def isElement : Node → Bool
  | .text _ => false
  | .element .. => true

/-- An element has one name. -/
def isNamed (name : String) : Node → Bool
  | .text _ => false
  | .element own _ _ => own == name.toList

def children : Node → List Node
  | .text _ => []
  | .element _ _ children => children

def attribute? (label : String) : Node → Option String
  | .text _ => none
  | .element _ attributes _ => (attributes.lookup label.toList).map String.ofList

def characters : Node → List Char
  | .text content => content
  | .element .. => []

/-- The content of an element joins the texts in it. -/
def content (node : Node) : String :=
  String.ofList (node.children.flatMap characters)

/-- The first element with a name in an element. -/
def child? (name : String) (node : Node) : Option Node :=
  node.children.find? (isNamed name)

end Node

/-- The entities stand for five characters. -/
def entities : List (List Char × Char) :=
  [("&lt;".toList, '<'), ("&gt;".toList, '>'), ("&amp;".toList, '&'), ("&apos;".toList, '\''),
    ("&quot;".toList, '"')]

/-- Decoding skips the rest of an entity that was found and otherwise keeps each character. -/
def decodeFrom : Nat → List Char → Option (List Char)
  | _, [] => some []
  | pending + 1, _ :: rest => decodeFrom pending rest
  | 0, character :: rest =>
    if character = '&' then do
      let (written, meaning) ← entities.find? fun entity =>
        entity.1.isPrefixOf (character :: rest)
      (decodeFrom (written.length - 1) rest).map (meaning :: ·)
    else (decodeFrom 0 rest).map (character :: ·)

/-- Text is decoded unless it has an ampersand that starts no entity. -/
def decode (text : List Char) : Option (List Char) :=
  decodeFrom 0 text

/-- A label lasts until white space or an equals sign. -/
def isLabelCharacter (character : Char) : Bool :=
  !isSpace character && character != '='

/-- An attribute is a label, an equals sign and a value in quotes of either kind. -/
def attributeAt (text : List Char) : Option ((List Char × List Char) × List Char) :=
  let label := text.takeWhile isLabelCharacter
  match (text.dropWhile isLabelCharacter).dropWhile isSpace with
  | '=' :: behind =>
    match behind.dropWhile isSpace with
    | quote :: inner =>
      if quote = '"' ∨ quote = '\'' then do
        let (written, rest) ← Text.cut? [quote] inner
        let value ← decode written
        some ((label, value), rest)
      else none
    | [] => none
  | _ => none

/-- Attributes are read one after the other. -/
def attributesWithin : Nat → List Char → Option (List (List Char × List Char))
  | 0, _ => none
  | fuel + 1, text =>
    match text.dropWhile isSpace with
    | [] => some []
    | start => do
      let (first, rest) ← attributeAt start
      (attributesWithin fuel rest).map (first :: ·)

/-- A tag has a name, and attributes behind the first white space. Each of them takes more than one
character. -/
def readTag (content : List Char) : Option (List Char × List (List Char × List Char)) :=
  (attributesWithin (content.length + 1)
      (content.dropWhile fun character => !isSpace character)).map
    fun attributes => (Event.tagName content, attributes)

/-- An open element has the nodes that were read in it. -/
structure Frame where
  name : List Char
  attributes : List (List Char × List Char)
  children : List Node

/-- While a document is read there are open elements, innermost first, and perhaps a root that was
closed. -/
structure Reading where
  frames : List Frame
  root : Option Node

namespace Reading

def start : Reading := ⟨[], none⟩

/-- A node belongs to the innermost open element, and outside of all elements there is one root. -/
def add (reading : Reading) (node : Node) : Option Reading :=
  match reading.frames with
  | frame :: frames =>
    some { reading with frames := { frame with children := frame.children ++ [node] } :: frames }
  | [] =>
    if node.isElement && reading.root.isNone then some { reading with root := some node } else none

/-- An element is opened in another one or as the root. -/
def enter (reading : Reading) (tag : List Char × List (List Char × List Char)) : Option Reading :=
  if reading.frames.isEmpty && reading.root.isSome then none
  else some { reading with frames := ⟨tag.1, tag.2, []⟩ :: reading.frames }

/-- The innermost element is closed by its name. -/
def leave (reading : Reading) (name : List Char) : Option Reading :=
  match reading.frames with
  | frame :: frames =>
    if name = frame.name then
      { reading with frames }.add (.element frame.name frame.attributes frame.children)
    else none
  | [] => none

/-- Text outside of all elements must be white space. -/
def write (reading : Reading) (content : List Char) : Option Reading :=
  if reading.frames.isEmpty then if content.all isSpace then some reading else none
  else (decode content).bind fun decoded => reading.add (.text decoded)

/-- Each event adds to what was read before it. -/
def step (reading : Reading) : Event → Option Reading
  | .opening content => (readTag content).bind reading.enter
  | .empty content => (readTag content).bind fun tag => reading.add (.element tag.1 tag.2 [])
  | .closing name => reading.leave name
  | .text content => reading.write content
  | .section content => reading.add (.text content)
  | .comment _ | .doctype _ | .instruction _ => some reading

end Reading

/-- The events of a text are its markup and the texts between, which last until the next opening
bracket. -/
def events? : List Char → Option (List Event)
  | [] => some []
  | '<' :: markup =>
    match _read : Event.ofMarkup markup with
    | .ok (event, rest) => (events? rest).map (event :: ·)
    | .error _ => none
  | character :: rest =>
    (events? (rest.dropWhile (· != '<'))).map
      (.text (character :: rest.takeWhile (· != '<')) :: ·)
termination_by source => source.length
decreasing_by
  · have shorter := Event.length_of_ofMarkup _read
    simp only [List.length_cons]
    omega
  · have shorter := (List.dropWhile_suffix (l := rest) (· != '<')).length_le
    simp only [List.length_cons]
    omega

@[simp] theorem events?_nil : events? [] = some [] := by
  rw [events?]

/-- Markup is the first event of a text, and the others are those of the rest. -/
theorem events?_markup {markup rest : List Char} {event : Event}
    (read : Event.ofMarkup markup = .ok (event, rest)) :
    events? ('<' :: markup) = (events? rest).map (event :: ·) := by
  rw [events?]
  split
  · rename_i found
    obtain ⟨rfl, rfl⟩ := Prod.mk.inj (Except.ok.inj (read.symm.trans found))
    rfl
  · rename_i found
    nomatch read.symm.trans found

theorem events?_fault {markup : List Char} {fault : MarkupFault}
    (read : Event.ofMarkup markup = .error fault) : events? ('<' :: markup) = none := by
  rw [events?]
  split
  · rename_i found
    nomatch read.symm.trans found
  · rfl

/-- Other characters are a text up to the next markup. -/
theorem events?_cons {character : Char} {rest : List Char} (plain : character ≠ '<') :
    events? (character :: rest) = (events? (rest.dropWhile (· != '<'))).map
      (.text (character :: rest.takeWhile (· != '<')) :: ·) := by
  rw [events?]
  exact plain

/-- A text is at markup when it is at its end or goes on with an opening bracket. -/
def AtMarkup (source : List Char) : Prop :=
  source.dropWhile (· != '<') = source

/-- Characters without an opening bracket before markup are one text. -/
theorem events?_text {content rest : List Char} (written : content ≠ [])
    (plain : ∀ character ∈ content, character ≠ '<') (separate : AtMarkup rest) :
    events? (content ++ rest) = (events? rest).map (.text content :: ·) := by
  cases content with
  | nil => exact absurd rfl written
  | cons character others =>
      have kept : ∀ other ∈ others, (other != '<') = true := by
        intro other member
        simpa using plain other (List.mem_cons_of_mem _ member)
      have nothing : rest.takeWhile (· != '<') = [] := by
        have divided := List.takeWhile_append_dropWhile (p := (· != '<')) (l := rest)
        rw [separate] at divided
        exact List.append_left_eq_self.1 divided
      rw [List.cons_append, events?_cons (plain character List.mem_cons_self),
        List.dropWhile_append_of_pos kept, List.takeWhile_append_of_pos kept, separate, nothing,
        List.append_nil]

/-- A byte order mark before a document does not count. -/
def withoutMark : List Char → List Char
  | '\ufeff' :: rest => rest
  | characters => characters

/-- The byte order mark before a document, if there is one. -/
def leadingMark : List Char → List Char
  | '\ufeff' :: _ => ['\ufeff']
  | _ => []

/-- A text is its byte order mark and the document behind it. -/
theorem leadingMark_append_withoutMark (text : List Char) :
    leadingMark text ++ withoutMark text = text := by
  fun_cases withoutMark text with
  | case1 rest => rfl
  | case2 text unmarked =>
      rw [leadingMark]
      · rfl
      · exact unmarked

/-- A document is one root element. -/
def document? (text : String) : Option Node := do
  let events ← events? (withoutMark text.toList)
  let reading ← events.foldlM Reading.step .start
  if reading.frames.isEmpty then reading.root else none

end WorkflowBundle.Xml
