/-
This file checks that XML text is one element whose tags match.
-/

import WorkflowBundle.Text.Blank
import WorkflowBundle.Xml.Event

namespace WorkflowBundle.Xml

/-- A document is at fault in its markup, in the nesting of its tags, or in what stands outside of
its root element. -/
inductive Fault where
  | markup (fault : MarkupFault)
  | mismatchedEnd (expected found : String)
  | unmatchedEnd (found : String)
  | severalRoots
  | outerText
  | outerSection
  | openElement
  | noRoot
deriving DecidableEq

/-- A fault names what is wrong. -/
def Fault.message : Fault → String
  | .markup fault => fault.message
  | .mismatchedEnd expected found =>
    s!"ill-formed document: expected `</{expected}>`, but `</{found}>` was found"
  | .unmatchedEnd found =>
    s!"ill-formed document: close tag `</{found}>` does not match any open tag"
  | .severalRoots => "multiple root elements"
  | .outerText => "text outside the root element"
  | .outerSection => "CDATA outside the root element"
  | .openElement => "unclosed element at end of document"
  | .noRoot => "no root element"

/-- The nesting at an event is the names of the open elements, innermost first, and whether the root
was met. -/
structure Nesting where
  names : List (List Char)
  rooted : Bool
deriving DecidableEq

namespace Nesting

def start : Nesting := ⟨[], false⟩

/-- Outside of all elements no second root may start. -/
def addRoot (nesting : Nesting) (offset : Nat) : Except (Fault × Nat) Nesting :=
  if nesting.names.isEmpty && nesting.rooted then .error (.severalRoots, offset)
  else .ok { nesting with rooted := true }

/-- An end tag closes the innermost element, whose name it has. -/
def close (nesting : Nesting) (name : List Char) (offset : Nat) :
    Except (Fault × Nat) Nesting :=
  match nesting.names with
  | [] => .error (.unmatchedEnd (String.ofList name), offset)
  | expected :: names =>
    if name = expected then .ok { nesting with names }
    else .error (.mismatchedEnd (String.ofList expected) (String.ofList name), offset)

/-- Each event needs its place in the nesting. -/
def step (nesting : Nesting) (placed : Placed) : Except (Fault × Nat) Nesting :=
  match placed.event with
  | .opening content => do
    let nesting ← nesting.addRoot placed.before
    return { nesting with names := Event.tagName content :: nesting.names }
  | .empty _ => nesting.addRoot placed.before
  | .closing name => nesting.close name placed.start
  | .text content =>
    if nesting.names.isEmpty && !content.all Text.isAsciiBlank then
      .error (.outerText, placed.before)
    else .ok nesting
  | .section _ =>
    if nesting.names.isEmpty then .error (.outerSection, placed.before) else .ok nesting
  | .comment _ | .doctype _ | .instruction _ => .ok nesting

end Nesting

/-- The first fault of a text comes with its byte offset, and a text without fault is well
formed. -/
def checkWellFormed (text : String) : Except (Fault × Nat) Unit := do
  let events := Events.read text
  let nesting ← events.placed.foldlM Nesting.step .start
  match events.fault with
  | some (fault, offset) => throw (.markup fault, offset)
  | none =>
    if !nesting.names.isEmpty then throw (.openElement, text.utf8ByteSize)
    else if !nesting.rooted then throw (.noRoot, 0)

end WorkflowBundle.Xml
