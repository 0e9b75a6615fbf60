/-
This file finds the events of a document in its text, and with them the declarations of document
types.
-/

import WorkflowBundle.Proofs.Xml.Division

namespace WorkflowBundle.Xml

/-- A document type is declared at an offset by a spelling of the word, with some content up to a
closing bracket. -/
def DeclaredAt (source : List Char) (offset : Nat) (word content : List Char) : Prop :=
  word.map Char.toLower = Event.doctypeWord ∧
    ∃ before after, source = before ++ ('<' :: '!' :: word ++ content ++ ['>']) ++ after ∧
      Text.byteSize before = offset

/-- Markup is at an offset when the text before its opening bracket has this size. -/
def MarkupAt (source : List Char) (offset : Nat) (event : Event) : Prop :=
  ∃ before markup rest, source = before ++ '<' :: markup ∧
    Event.ofMarkup markup = .ok (event, rest) ∧ Text.byteSize before = offset

/-- Markup behind some text is at an offset that counts this text. -/
theorem MarkupAt.behind {source : List Char} {offset : Nat} {event : Event}
    (located : MarkupAt source offset event) (lead : List Char) :
    MarkupAt (lead ++ source) (Text.byteSize lead + offset) event := by
  obtain ⟨before, markup, rest, rfl, read, rfl⟩ := located
  refine ⟨lead ++ before, markup, rest, ?_, read, Text.byteSize_append lead before⟩
  rw [List.append_assoc]

/-- Each piece of a text is a text itself, or it is markup at the offset where it starts. -/
theorem Divides.markupAt_of_mem_place {pieces : List Piece} {source rest : List Char}
    {offset : Nat} {placed : Placed} (divided : Divides pieces source rest)
    (member : placed ∈ place offset pieces) :
    (∃ content, placed.event = .text content) ∨
      ∃ distance, MarkupAt source distance placed.event ∧ placed.start = offset + distance := by
  induction divided generalizing offset with
  | done rest => nomatch member
  | @take piece pieces following rest first others inductionHypothesis =>
      rcases List.mem_cons.1 member with rfl | later
      · cases first with
        | @markup space taken following event blank read =>
            refine .inr ⟨_, ⟨space, taken ++ following, following, ?_, read, rfl⟩, rfl⟩
            rw [Piece.characters, List.append_assoc, List.cons_append]
        | text blank visible plain separate => exact .inl ⟨_, rfl⟩
      · rcases inductionHypothesis later with text | ⟨distance, located, start⟩
        · exact .inl text
        · refine .inr ⟨_, located.behind piece.characters, ?_⟩
          rw [start, Nat.add_assoc]

/-- The declaration of a document type is written where its event starts. -/
theorem Events.declaredAt_of_mem_read {text : String} {placed : Placed} {content : List Char}
    (member : placed ∈ (read text).placed) (doctype : placed.event = .doctype content) :
    ∃ word, DeclaredAt (withoutMark text.toList) placed.start word content := by
  obtain ⟨pieces, rest, divided, places, -⟩ :=
    divides_of_readWithin ((withoutMark text.toList).length + 1) 0 (withoutMark text.toList)
  rw [read_eq, places] at member
  rcases divided.markupAt_of_mem_place member with ⟨other, same⟩ | ⟨distance, located, start⟩
  · rw [doctype] at same
    nomatch same
  · obtain ⟨before, markup, rest, written, read, size⟩ := located
    obtain ⟨taken, rfl, declares⟩ := Event.exists_taken_of_ofMarkup read
    obtain ⟨word, spelled, rfl⟩ := declares content doctype
    refine ⟨word, spelled, before, rest, ?_, by rw [size, start, Nat.zero_add]⟩
    refine written.trans ?_
    simp

theorem withoutMark_suffix (text : List Char) : withoutMark text <:+ text :=
  ⟨leadingMark text, leadingMark_append_withoutMark text⟩

/-- The opening of a declaration and its content occur in the text. -/
theorem DeclaredAt.infix {text word content : List Char} {offset : Nat}
    (declared : DeclaredAt (withoutMark text) offset word content) :
    '<' :: '!' :: word <:+: text ∧ content <:+: text := by
  obtain ⟨-, before, after, written, -⟩ := declared
  have ends := withoutMark_suffix text
  rw [written] at ends
  constructor
  · refine List.IsInfix.trans ⟨before, content ++ ['>'] ++ after, ?_⟩ ends.isInfix
    simp
  · refine List.IsInfix.trans ⟨before ++ '<' :: '!' :: word, '>' :: after, ?_⟩ ends.isInfix
    simp

end WorkflowBundle.Xml
