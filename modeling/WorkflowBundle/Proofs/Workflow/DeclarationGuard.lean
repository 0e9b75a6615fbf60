/-
This file compares the declarations that instructions may not hold with those that their reader
meets.
-/

import WorkflowBundle.Proofs.Xml.Declaration
import WorkflowBundle.Workflow.Instructions

namespace WorkflowBundle.Instructions

/-- A text is free of forbidden declarations when the marks of these do not occur in it. -/
def IsGuarded (text : String) : Prop :=
  ∀ name ∈ forbiddenNames, ¬ ("<!" ++ name).toList <:+: text.toList

/-- A declaration is no fault if its mark does not occur. -/
theorem declarationFault?_eq_none_iff (text : String) (path : Path) (name : String) :
    declarationFault? text path name = none ↔ ¬ ("<!" ++ name).toList <:+: text.toList := by
  rw [declarationFault?, declarationOffset?, Option.map_eq_none_iff, Option.map_eq_none_iff,
    ← Option.not_isSome_iff_eq_none, Text.isSome_cut?_iff]

/-- A document that is not Markdown is valid when it is free of forbidden declarations and well
formed. -/
theorem validate_eq_ok_iff {text : String} {path : Path} (xml : isMarkdown path = false) :
    validate text path = .ok () ↔ IsGuarded text ∧ Xml.checkWellFormed text = .ok () := by
  have guard : forbiddenNames.findSome? (declarationFault? text path) = none ↔ IsGuarded text := by
    rw [List.findSome?_eq_none_iff]
    exact forall₂_congr fun name _ => declarationFault?_eq_none_iff text path name
  rw [validate, if_neg (by simp [xml]), ← guard]
  cases forbiddenNames.findSome? (declarationFault? text path) with
  | some fault => simp
  | none => simp [Outcome.mapError_eq_ok_iff]

/-- In a valid document that is not Markdown every document type declaration that the reader meets
is written where its event starts, with some letter of the word that is no capital, and without an
entity declaration in it. If the word is written in capitals wherever it opens a declaration, the
reader meets none. -/
theorem valid_document_has_no_capital_declaration {text : String} {path : Path}
    (xml : isMarkdown path = false) (valid : validate text path = .ok ()) :
    (∀ placed ∈ (Xml.Events.read text).placed, ∀ content, placed.event = .doctype content →
      ∃ word, Xml.DeclaredAt (Xml.withoutMark text.toList) placed.start word content ∧
        word ≠ "DOCTYPE".toList ∧ ¬ "<!ENTITY".toList <:+: content) ∧
    ((∀ word, word.map Char.toLower = Xml.Event.doctypeWord →
        '<' :: '!' :: word <:+: text.toList → word = "DOCTYPE".toList) →
      ∀ placed ∈ (Xml.Events.read text).placed, ∀ content, placed.event ≠ .doctype content) := by
  obtain ⟨guarded, -⟩ := (validate_eq_ok_iff xml).1 valid
  have noDoctype : ¬ "<!DOCTYPE".toList <:+: text.toList := guarded "DOCTYPE" (by decide)
  have noEntity : ¬ "<!ENTITY".toList <:+: text.toList := guarded "ENTITY" (by decide)
  have declared : ∀ placed ∈ (Xml.Events.read text).placed, ∀ content,
      placed.event = .doctype content →
      ∃ word, Xml.DeclaredAt (Xml.withoutMark text.toList) placed.start word content ∧
        word ≠ "DOCTYPE".toList ∧ ¬ "<!ENTITY".toList <:+: content := by
    intro placed member content doctype
    obtain ⟨word, written⟩ := Xml.Events.declaredAt_of_mem_read member doctype
    obtain ⟨opens, inside⟩ := written.infix
    refine ⟨word, written, ?_, ?_⟩
    · rintro rfl
      exact noDoctype opens
    · intro entity
      exact noEntity (entity.trans inside)
  refine ⟨declared, ?_⟩
  intro capital placed member content doctype
  obtain ⟨word, written, small, -⟩ := declared placed member content doctype
  exact small (capital word written.1 written.infix.1)

/-- This document declares a type with an entity, in small letters. -/
def smallDeclaration : String := "<!doctype a [<!entity b 'c'>]><a/>"

/-- The document is no Markdown, and it is valid. -/
theorem valid_smallDeclaration :
    isMarkdown ⟨"instructions.xml"⟩ = false ∧
      validate smallDeclaration ⟨"instructions.xml"⟩ = .ok () := by
  decide +kernel

theorem read_smallDeclaration :
    ∃ placed ∈ (Xml.Events.read smallDeclaration).placed,
      placed.event = .doctype " a [<!entity b 'c'>]".toList ∧ placed.start = 0 := by
  have first : (Xml.Events.read smallDeclaration).placed.head? =
      some ⟨.doctype " a [<!entity b 'c'>]".toList, 0, 0, 30⟩ := by
    decide +kernel
  exact ⟨_, List.mem_of_mem_head? first, rfl, rfl⟩

/-- The declaration is written at the start, and its word has a letter that is no capital. -/
theorem valid_document_has_small_declaration :
    ∃ word, Xml.DeclaredAt (Xml.withoutMark smallDeclaration.toList) 0 word
        " a [<!entity b 'c'>]".toList ∧
      word ≠ "DOCTYPE".toList := by
  obtain ⟨xml, valid⟩ := valid_smallDeclaration
  obtain ⟨placed, member, doctype, start⟩ := read_smallDeclaration
  obtain ⟨word, written, small, -⟩ :=
    (valid_document_has_no_capital_declaration xml valid).1 placed member _ doctype
  exact ⟨word, start ▸ written, small⟩

/-- A valid document that is not Markdown can have a declaration of its type. -/
theorem valid_document_declares_type :
    ¬ ∀ (text : String) (path : Path), isMarkdown path = false → validate text path = .ok () →
      ∀ placed ∈ (Xml.Events.read text).placed, ∀ content, placed.event ≠ .doctype content := by
  intro free
  obtain ⟨xml, valid⟩ := valid_smallDeclaration
  obtain ⟨placed, member, doctype, -⟩ := read_smallDeclaration
  exact free _ _ xml valid placed member _ doctype

end WorkflowBundle.Instructions
