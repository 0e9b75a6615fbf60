/-
This file shows that each written part of a bundle adds its nodes to the element around it.
-/

import WorkflowBundle.Proofs.Bundle.Tag

namespace WorkflowBundle.Bundle

open Xml

/-- Reading goes on from some open elements to the end of a text. -/
def readFrom (reading : Reading) (source : List Char) : Option Reading :=
  (events? source).bind fun events => events.foldlM Reading.step reading

theorem readFrom_nil (reading : Reading) : readFrom reading [] = some reading := by
  rw [readFrom, events?_nil]
  rfl

/-- The first events of a text are read before the others. -/
theorem readFrom_events {source rest : List Char} {events : List Event}
    (divided : events? source = (events? rest).map (events ++ ·)) (reading : Reading) :
    readFrom reading source =
      (events.foldlM Reading.step reading).bind fun next => readFrom next rest := by
  rw [readFrom, divided]
  cases others : events? rest with
  | none =>
      cases events.foldlM Reading.step reading <;> simp [readFrom, others]
  | some others =>
      rw [Option.map_some, Option.bind_some, List.foldlM_append]
      simp [readFrom, others]

/-- Markup is read before the rest. -/
theorem readFrom_markup {markup rest : List Char} {event : Event}
    (read : Event.ofMarkup markup = .ok (event, rest)) (reading : Reading) :
    readFrom reading ('<' :: markup) =
      (reading.step event).bind fun next => readFrom next rest := by
  have first : events? ('<' :: markup) = (events? rest).map ([event] ++ ·) := events?_markup read
  rw [readFrom_events first]
  simp [List.foldlM_cons]

/-- Text is read before the markup behind it. -/
theorem readFrom_text {content rest : List Char} (written : content ≠ [])
    (plain : ∀ character ∈ content, character ≠ '<') (separate : AtMarkup rest)
    (reading : Reading) :
    readFrom reading (content ++ rest) =
      (reading.write content).bind fun next => readFrom next rest := by
  have first : events? (content ++ rest) = (events? rest).map ([.text content] ++ ·) :=
    events?_text written plain separate
  rw [readFrom_events first]
  simp [List.foldlM_cons, Reading.step]

/-- A written part adds nodes to the innermost element when markup follows. -/
def Adds (written : String) (nodes : List Node) : Prop :=
  ∀ frame frames root rest, AtMarkup rest →
    readFrom ⟨frame :: frames, root⟩ (written.toList ++ rest) =
      readFrom ⟨{ frame with children := frame.children ++ nodes } :: frames, root⟩ rest

/-- A part is marked when it is empty or has markup at its start. -/
def IsMarked (written : String) : Prop :=
  written = "" ∨ ∃ markup, written.toList = '<' :: markup

/-- In front of a marked part and of markup there is markup. -/
theorem IsMarked.atMarkup {written : String} (marked : IsMarked written) {rest : List Char}
    (separate : AtMarkup rest) : AtMarkup (written.toList ++ rest) := by
  rcases marked with rfl | ⟨markup, starts⟩
  · exact separate
  · rw [starts]
    rfl

theorem IsMarked.append {first second : String} (marked : IsMarked first)
    (next : IsMarked second) : IsMarked (first ++ second) := by
  rcases marked with rfl | ⟨markup, starts⟩
  · rwa [String.empty_append]
  · exact .inr ⟨markup ++ second.toList, by rw [String.toList_append, starts]; rfl⟩

theorem adds_empty : Adds "" [] := by
  intro frame frames root rest _
  rw [List.append_nil]
  rfl

/-- A part in front of a marked one adds its nodes first. -/
theorem Adds.append {first second : String} {nodes others : List Node} (adds : Adds first nodes)
    (next : Adds second others) (marked : IsMarked second) :
    Adds (first ++ second) (nodes ++ others) := by
  intro frame frames root rest separate
  rw [String.toList_append, List.append_assoc, adds _ _ _ _ (marked.atMarkup separate),
    next _ _ _ _ separate, List.append_assoc]

/-- An escaped text adds a text, unless it is empty. -/
theorem adds_escape (text : String) :
    Adds (Xml.escape text) (if text = "" then [] else [.text text.toList]) := by
  intro frame frames root rest separate
  split
  · rename_i empty
    rw [empty]
    exact adds_empty frame frames root rest separate
  · rename_i visible
    have written : (Xml.escape text).toList ≠ [] := by
      intro nothing
      have decoded := decode_escape text
      rw [nothing] at decoded
      exact visible (String.toList_eq_nil_iff.1 (Option.some.inj decoded).symm)
    rw [readFrom_text written (fun _ member => (plain_of_mem_escape member).1) separate]
    simp [Reading.write, decode_escape, Reading.add]

/-- A text in sections adds texts that make it up. -/
theorem adds_sections (text : String) :
    ∃ parts : List (List Char), parts.flatten = text.toList ∧
      Adds (Xml.sections text) (parts.map .text) := by
  obtain ⟨parts, joined, read⟩ := events?_sections text
  refine ⟨parts, joined, ?_⟩
  intro frame frames root rest _
  have added (frame : Frame) :
      (parts.map Event.section).foldlM Reading.step ⟨frame :: frames, root⟩ =
        some ⟨{ frame with children := frame.children ++ parts.map .text } :: frames, root⟩ := by
    clear joined read
    induction parts generalizing frame with
    | nil => simp
    | cons part parts inductionHypothesis =>
        rw [List.map_cons, List.foldlM_cons]
        change Option.bind (some _) _ = _
        rw [Option.bind_some, inductionHypothesis]
        simp
  rw [readFrom_events (read rest), added]
  rfl

theorem adds_lineEnd : Adds "\n" [.text ['\n']] := by
  intro frame frames root rest separate
  exact readFrom_text (by simp) (by simp) separate _

/-- An element is entered, its content is read in it, and it is added when it is left. -/
theorem readFrom_element {name attributes content : String} {given : Attribute}
    {nodes : List Node} (named : IsName name) (labelled : given.IsLabelled)
    (written : attributes.toList = given.written) (inner : Adds content nodes)
    {reading : Reading} (allowed : (reading.frames.isEmpty && reading.root.isSome) = false)
    (rest : List Char) :
    readFrom reading ((element name attributes content).toList ++ rest) =
      (reading.add (.element name.toList given.pairs nodes)).bind fun next =>
        readFrom next ('\n' :: rest) := by
  have shape : (element name attributes content).toList ++ rest =
      '<' :: (name.toList ++ (given.written ++ '>' :: (content.toList ++
        '<' :: '/' :: (name.toList ++ '>' :: '\n' :: rest)))) := by
    simp [element, written]
  have tag := readTag_eq named labelled (List.forall_mem_nil (Xml.isSpace · = true))
  rw [List.append_nil] at tag
  rw [shape, readFrom_markup (ofMarkup_opening named labelled _)]
  simp only [Reading.step, tag, Option.bind_some, Reading.enter, allowed]
  have bracket : AtMarkup ('<' :: '/' :: (name.toList ++ '>' :: '\n' :: rest)) := rfl
  change readFrom _ _ = _
  rw [inner _ _ _ _ bracket, readFrom_markup (ofMarkup_closing named _)]
  simp [Reading.step, Reading.leave]

/-- A written element adds an element and a line end. -/
theorem adds_element {name attributes content : String} {given : Attribute}
    {nodes : List Node} (named : IsName name) (labelled : given.IsLabelled)
    (written : attributes.toList = given.written) (inner : Adds content nodes) :
    Adds (element name attributes content)
      [.element name.toList given.pairs nodes, .text ['\n']] := by
  intro frame frames root rest separate
  rw [readFrom_element named labelled written inner (by rfl)]
  change readFrom _ ("\n".toList ++ rest) = _
  rw [adds_lineEnd _ _ _ _ separate]
  simp

theorem isMarked_element (name attributes content : String) :
    IsMarked (element name attributes content) :=
  .inr ⟨_, by simp [element]; rfl⟩

/-- An element without content adds an element and a line end. -/
theorem adds_emptyElement {written : String} {name : String} {given : Attribute}
    (named : IsName name) (labelled : given.IsLabelled)
    (shape : written.toList =
      '<' :: (name.toList ++ (given.written ++ ' ' :: '/' :: '>' :: ['\n']))) :
    Adds written [.element name.toList given.pairs [], .text ['\n']] := by
  intro frame frames root rest separate
  have tag := readTag_eq named labelled
    (by simp [Xml.isSpace] : ∀ character ∈ [' '], Xml.isSpace character = true)
  have markup : written.toList ++ rest =
      '<' :: (name.toList ++ (given.written ++ ' ' :: '/' :: '>' :: ("\n".toList ++ rest))) := by
    simp [shape]
  rw [markup, readFrom_markup (ofMarkup_empty named labelled _)]
  simp only [Reading.step, tag, Option.bind_some, Reading.add]
  rw [adds_lineEnd _ _ _ _ separate]
  simp

/-- Lines that add an element each add the elements in order. -/
theorem adds_lines {Item Content : Type} {line : Item → String} {read : Node → Option Content}
    {shown : Item → Content}
    (each : ∀ item, ∃ node, Adds (line item) [node, .text ['\n']] ∧ node.isElement = true ∧
      read node = some (shown item)) (marked : ∀ item, IsMarked (line item))
    (items : List Item) :
    ∃ nodes, Adds (String.join (items.map line)) nodes ∧ IsMarked (String.join (items.map line)) ∧
      (nodes.filter Node.isElement).mapM read = some (items.map shown) := by
  induction items with
  | nil => exact ⟨[], adds_empty, .inl rfl, rfl⟩
  | cons item others inductionHypothesis =>
      obtain ⟨node, adds, isElement, reads⟩ := each item
      obtain ⟨nodes, addsOthers, markedOthers, readsOthers⟩ := inductionHypothesis
      rw [List.map_cons, String.join_cons]
      refine ⟨_, adds.append addsOthers markedOthers, (marked item).append markedOthers, ?_⟩
      have kept : (node :: .text ['\n'] :: nodes).filter Node.isElement =
          node :: nodes.filter Node.isElement := by
        rw [List.filter_cons_of_pos isElement, List.filter_cons_of_neg (by simp [Node.isElement])]
      change ((node :: .text ['\n'] :: nodes).filter Node.isElement).mapM read = _
      rw [kept, List.mapM_cons, reads, readsOthers]
      rfl

end WorkflowBundle.Bundle
