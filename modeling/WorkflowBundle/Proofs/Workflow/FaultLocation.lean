/-
This file compares the location of a fault outside of the root element with the place where the text
at fault is written.
-/

import WorkflowBundle.Proofs.Text.Location
import WorkflowBundle.Proofs.Xml.Tree
import WorkflowBundle.Workflow.Instructions

namespace WorkflowBundle.Xml

/-- These faults are what stands outside of the root element. -/
def Fault.isOuter : Fault → Bool
  | .severalRoots | .outerText | .outerSection => true
  | .markup _ | .mismatchedEnd .. | .unmatchedEnd _ | .openElement | .noRoot => false

/-- Behind these events no element is open: they are those of a document, or the root is still to
come. -/
def IsOutside (earlier : List Event) : Prop :=
  IsDocument earlier ∨ ∀ event ∈ earlier, event.isOuter = true

/-- An event is at fault behind others when it is an element after the root element, or a text with
visible characters or a section outside of the root element. -/
inductive Fault.Concerns : Fault → List Event → Event → Prop where
  | opening {earlier : List Event} (content : List Char) (complete : IsDocument earlier) :
      Concerns .severalRoots earlier (.opening content)
  | empty {earlier : List Event} (content : List Char) (complete : IsDocument earlier) :
      Concerns .severalRoots earlier (.empty content)
  | text {earlier : List Event} {content : List Char} (outside : IsOutside earlier)
      (visible : content.all Text.isAsciiBlank = false) :
      Concerns .outerText earlier (.text content)
  | characterData {earlier : List Event} (content : List Char) (outside : IsOutside earlier) :
      Concerns .outerSection earlier (.section content)

namespace Nesting

/-- Events that leave no element open lead outside. -/
theorem isOutside_of_foldlM {events : List Event} {nesting : Nesting}
    (run : events.foldlM after? .start = some nesting) (closed : nesting.names.isEmpty = true) :
    IsOutside events := by
  obtain ⟨names, rooted⟩ := nesting
  obtain rfl : names = [] := List.isEmpty_iff.1 closed
  cases rooted with
  | true => exact .inl ((foldlM_start_eq_rooted_iff events).1 run)
  | false => exact .inr ((foldlM_start_eq_start_iff events).1 run)

/-- Another root is at fault outside of all elements only. -/
theorem document_of_addRoot_eq_error {earlier : List Event} {nesting : Nesting} {fault : Fault}
    {offset before : Nat} (run : earlier.foldlM after? .start = some nesting)
    (failed : nesting.addRoot before = .error (fault, offset)) :
    fault = .severalRoots ∧ IsDocument earlier ∧ offset = before := by
  obtain ⟨names, rooted⟩ := nesting
  rw [addRoot] at failed
  split at failed
  · rename_i second
    obtain ⟨closed, met⟩ := Bool.and_eq_true_iff.1 second
    obtain rfl : names = [] := List.isEmpty_iff.1 closed
    obtain rfl : rooted = true := met
    obtain ⟨rfl, rfl⟩ := Prod.mk.inj (Except.error.inj failed)
    exact ⟨rfl, (foldlM_start_eq_rooted_iff earlier).1 run, rfl⟩
  · cases failed

/-- A closing tag is at fault for its name and not for its place. -/
theorem isOuter_eq_false_of_close {nesting : Nesting} {name : List Char} {fault : Fault}
    {offset start : Nat} (failed : nesting.close name start = .error (fault, offset)) :
    fault.isOuter = false := by
  rw [close] at failed
  split at failed
  · obtain ⟨rfl, -⟩ := Prod.mk.inj (Except.error.inj failed)
    rfl
  · split at failed
    · cases failed
    · obtain ⟨rfl, -⟩ := Prod.mk.inj (Except.error.inj failed)
      rfl

/-- An event that is at fault outside of the root is reported where the event before it ended. -/
theorem concerns_of_step_eq_error {earlier : List Event} {nesting : Nesting} {placed : Placed}
    {fault : Fault} {offset : Nat} (run : earlier.foldlM after? .start = some nesting)
    (failed : nesting.step placed = .error (fault, offset)) (outer : fault.isOuter = true) :
    fault.Concerns earlier placed.event ∧ offset = placed.before := by
  obtain ⟨event, before, start, stop⟩ := placed
  cases event with
  | opening content =>
      have second : nesting.addRoot before = .error (fault, offset) :=
        (Outcome.bind_eq_error_iff.1 failed).resolve_right nofun
      obtain ⟨rfl, complete, located⟩ := document_of_addRoot_eq_error run second
      exact ⟨.opening content complete, located⟩
  | empty content =>
      obtain ⟨rfl, complete, located⟩ := document_of_addRoot_eq_error run failed
      exact ⟨.empty content complete, located⟩
  | closing name =>
      rw [isOuter_eq_false_of_close failed] at outer
      cases outer
  | text content =>
      simp only [step] at failed
      split at failed
      · rename_i stray
        obtain ⟨closed, visible⟩ := Bool.and_eq_true_iff.1 stray
        obtain ⟨rfl, located⟩ := Prod.mk.inj (Except.error.inj failed)
        exact ⟨.text (isOutside_of_foldlM run closed) (by simpa using visible), located.symm⟩
      · cases failed
  | «section» content =>
      simp only [step] at failed
      split at failed
      · rename_i closed
        obtain ⟨rfl, located⟩ := Prod.mk.inj (Except.error.inj failed)
        exact ⟨.characterData content (isOutside_of_foldlM run closed), located.symm⟩
      · cases failed
  | comment content | doctype content | instruction content => cases failed

end Nesting

/-- A text that is at fault outside of its root element has a piece that is. The offset of the fault
counts the pieces before this one. -/
theorem exists_piece_of_outer_fault {text : String} {fault : Fault} {offset : Nat}
    (failed : checkWellFormed text = .error (fault, offset)) (outer : fault.isOuter = true) :
    ∃ (pieces later : List Piece) (piece : Piece) (rest : List Char),
      Divides (pieces ++ piece :: later) (withoutMark text.toList) rest ∧
      fault.Concerns (pieces.map Piece.event) piece.event ∧
      offset = Text.byteSize (pieces.flatMap Piece.characters) := by
  obtain ⟨all, rest, divided, places, -⟩ := Events.divides_of_readWithin
    ((withoutMark text.toList).length + 1) 0 (withoutMark text.toList)
  rcases Outcome.bind_eq_error_iff.1 failed with stepped | ⟨nesting, -, finished⟩
  · rw [Events.read_eq, places] at stepped
    obtain ⟨earlier, placed, behind, nesting, shape, run, failing⟩ :=
      Outcome.exists_of_foldlM_eq_error stepped
    obtain ⟨pieces, piece, later, rfl, rfl, rfl⟩ := exists_of_place_eq_append shape
    have reached : (pieces.map Piece.event).foldlM Nesting.after? .start = some nesting := by
      rw [← map_event_place 0 pieces, ← Nesting.toOption_foldlM_step, run]
      rfl
    obtain ⟨concerned, located⟩ := Nesting.concerns_of_step_eq_error reached failing outer
    exact ⟨pieces, later, piece, rest, divided, concerned, located.trans (Nat.zero_add _)⟩
  · -- The other faults are those of the markup, of an open element and of a missing root.
    split at finished
    · obtain ⟨rfl, -⟩ := Prod.mk.inj (Except.error.inj finished)
      nomatch outer
    · split at finished
      · obtain ⟨rfl, -⟩ := Prod.mk.inj (Except.error.inj finished)
        nomatch outer
      · split at finished
        · obtain ⟨rfl, -⟩ := Prod.mk.inj (Except.error.inj finished)
          nomatch outer
        · nomatch finished

namespace Piece

/-- The white space at the start of a piece leads to what is written in it. -/
def lead (piece : Piece) : List Char :=
  piece.characters.takeWhile Text.isAsciiBlank

/-- A piece is written in a text behind the byte order mark, the pieces before it and its white
space. -/
def site (text : String) (earlier : List Piece) (piece : Piece) : Nat :=
  Text.byteSize (leadingMark text.toList ++ earlier.flatMap characters ++ piece.lead)

/-- A piece of a text is written inside of the text. -/
theorem site_le {text : String} {earlier later : List Piece} {piece : Piece} {rest : List Char}
    (divided : Divides (earlier ++ piece :: later) (withoutMark text.toList) rest) :
    piece.site text earlier ≤ Text.byteSize text.toList := by
  have whole := leadingMark_append_withoutMark text.toList
  have taken : piece.lead ++ piece.characters.dropWhile Text.isAsciiBlank = piece.characters :=
    List.takeWhile_append_dropWhile
  rw [divided.source_eq, List.flatMap_append, List.flatMap_cons, ← taken] at whole
  rw [← whole, site]
  simp only [Text.byteSize_append]
  omega

end Piece

end WorkflowBundle.Xml

namespace WorkflowBundle.Instructions

open Xml

/-- Instructions are malformed when they are not well formed, and the fault is located at its
offset. -/
theorem checkWellFormed_of_malformed {text : String} {path named : Path} {fault : Fault}
    {location : Location}
    (failed : validate text path = .error (.malformedInstructions named fault location)) :
    ∃ offset, checkWellFormed text = .error (fault, offset) ∧
      location = .ofOffset text offset := by
  rw [validate] at failed
  split at failed
  · nomatch failed
  · split at failed
    · rename_i forbidden found
      obtain ⟨name, -, declared⟩ := List.exists_of_findSome?_eq_some found
      obtain ⟨offset, -, rfl⟩ := Option.map_eq_some_iff.1 declared
      nomatch failed
    · obtain ⟨⟨cause, offset⟩, checked, reported⟩ := Outcome.mapError_eq_error_iff.1 failed
      injection reported with _ same located
      exact ⟨offset, same ▸ checked, located.symm⟩

/-- A fault outside of the root element is located behind the pieces before the one at fault,
counted without the byte order mark. This is where that piece is written exactly when the text has
no such mark and the piece starts with no white space. -/
theorem outer_fault_is_located_behind_earlier_pieces {text : String} {path : Path} {fault : Fault}
    {location : Location} (outer : fault.isOuter = true)
    (failed : validate text path = .error (.malformedInstructions path fault location)) :
    ∃ (pieces later : List Piece) (piece : Piece) (rest : List Char),
      Divides (pieces ++ piece :: later) (withoutMark text.toList) rest ∧
      fault.Concerns (pieces.map Piece.event) piece.event ∧
      location = .ofOffset text (Text.byteSize (pieces.flatMap Piece.characters)) ∧
      (location = .ofOffset text (piece.site text pieces) ↔
        leadingMark text.toList = [] ∧ piece.lead = []) := by
  obtain ⟨offset, checked, rfl⟩ := checkWellFormed_of_malformed failed
  obtain ⟨pieces, later, piece, rest, divided, concerned, rfl⟩ :=
    exists_piece_of_outer_fault checked outer
  refine ⟨pieces, later, piece, rest, divided, concerned, rfl, ?_⟩
  have ordered : Text.byteSize (pieces.flatMap Piece.characters) ≤ piece.site text pieces := by
    simp only [Piece.site, Text.byteSize_append]
    omega
  rw [Location.ofOffset_eq_iff ordered (Piece.site_le divided), ← Text.byteSize_eq_zero_iff,
    ← Text.byteSize_eq_zero_iff]
  simp only [Piece.site, Text.byteSize_append]
  omega

/-- In this text a second element stands on its own line. -/
def secondElementBelow : String := "<a/>\n<b/>"

theorem validate_secondElementBelow :
    validate secondElementBelow ⟨"instructions.xml"⟩ =
      .error (.malformedInstructions ⟨"instructions.xml"⟩ .severalRoots ⟨1, 5⟩) := by
  decide +kernel

/-- The location of the second element is that behind the first one, and white space or a byte order
mark is to blame if it is not where the second one is written. -/
theorem second_element_is_located_behind_first :
    ∃ (pieces later : List Piece) (piece : Piece) (rest : List Char),
      Divides (pieces ++ piece :: later) (withoutMark secondElementBelow.toList) rest ∧
      Fault.severalRoots.Concerns (pieces.map Piece.event) piece.event ∧
      ⟨1, 5⟩ = Location.ofOffset secondElementBelow
        (Text.byteSize (pieces.flatMap Piece.characters)) ∧
      (⟨1, 5⟩ = Location.ofOffset secondElementBelow (piece.site secondElementBelow pieces) ↔
        leadingMark secondElementBelow.toList = [] ∧ piece.lead = []) :=
  outer_fault_is_located_behind_earlier_pieces rfl validate_secondElementBelow

/-- A fault outside of the root element can be located elsewhere than where the text at fault is
written. -/
theorem outer_fault_is_located_elsewhere :
    ¬ ∀ (text : String) (path : Path) (fault : Fault) (location : Location),
      fault.isOuter = true →
      validate text path = .error (.malformedInstructions path fault location) →
      ∀ (pieces later : List Piece) (piece : Piece) (rest : List Char),
        Divides (pieces ++ piece :: later) (withoutMark text.toList) rest →
        fault.Concerns (pieces.map Piece.event) piece.event →
        location = .ofOffset text (piece.site text pieces) := by
  intro claimed
  let first : Piece := ⟨[], "<a/>".toList, .empty ['a']⟩
  let second : Piece := ⟨['\n'], "<b/>".toList, .empty ['b']⟩
  have divided : Divides [first, second] (withoutMark secondElementBelow.toList) [] := by
    refine .take (.markup (List.forall_mem_nil _) rfl) ?_
    exact .take (.markup (List.forall_mem_singleton.2 rfl) rfl) (.done [])
  have concerned : Fault.severalRoots.Concerns [first.event] second.event :=
    .empty ['b'] ⟨[], .empty ['a'], [], rfl, rfl, nofun, nofun⟩
  have located := claimed secondElementBelow _ _ _ rfl validate_secondElementBelow
    [first] [] second [] divided concerned
  have written : Location.ofOffset secondElementBelow (second.site secondElementBelow [first]) =
      ⟨2, 1⟩ := by
    decide +kernel
  rw [written] at located
  nomatch located

end WorkflowBundle.Instructions
