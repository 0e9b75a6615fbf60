/-
This file shows that each piece of markup takes a part of the text it is read from, and which part
the declaration of a document type takes.
-/

import WorkflowBundle.Proofs.Outcome
import WorkflowBundle.Xml.Event

namespace WorkflowBundle.Xml

/-- A cut that keeps the first character divides the text as the cut of the rest does. -/
theorem Event.eq_append_of_kept {character : Char} {rest before after : List Char}
    {cut : Option (List Char × List Char)}
    (found : cut.map (fun (before, after) => (character :: before, after)) = some (before, after))
    (divides : ∀ before after, cut = some (before, after) → rest = before ++ '>' :: after) :
    character :: rest = before ++ '>' :: after := by
  obtain ⟨⟨inner, outer⟩, earlier, same⟩ := Option.map_eq_some_iff.1 found
  obtain ⟨rfl, rfl⟩ := Prod.mk.inj same
  rw [divides inner outer earlier, List.cons_append]

/-- A tag that is cut off ends at a closing bracket. -/
theorem Event.eq_append_of_cutTag? {quote : Option Char} {text before after : List Char}
    (found : cutTag? quote text = some (before, after)) : text = before ++ '>' :: after := by
  induction text generalizing quote before after with
  | nil => cases quote <;> nomatch found
  | cons character rest inductionHypothesis =>
      cases quote with
      | none =>
          rw [cutTag?] at found
          split at found
          · rename_i bracket
            obtain ⟨rfl, rfl⟩ := Prod.mk.inj (Option.some.inj found)
            rw [eq_of_beq bracket, List.nil_append]
          · exact eq_append_of_kept found fun _ _ => inductionHypothesis
      | some quote =>
          rw [cutTag?] at found
          exact eq_append_of_kept found fun _ _ => inductionHypothesis

theorem Event.eq_append_of_cutDeclaration? {balance : Nat} {text before after : List Char}
    (found : cutDeclaration? balance text = some (before, after)) :
    text = before ++ '>' :: after := by
  induction text generalizing balance before after with
  | nil => cases balance <;> nomatch found
  | cons character rest inductionHypothesis =>
      rw [cutDeclaration?.eq_def] at found
      simp only at found
      split at found
      · obtain ⟨rfl, rfl⟩ := Prod.mk.inj (Option.some.inj found)
        rfl
      · exact eq_append_of_kept found fun _ _ => inductionHypothesis
      · exact eq_append_of_kept found fun _ _ => inductionHypothesis
      · exact eq_append_of_kept found fun _ _ => inductionHypothesis

/-- Finished markup leaves what stands behind its mark. -/
theorem Event.finish_eq_ok {fault : MarkupFault} {make : List Char → Event}
    {cut : Option (List Char × List Char)} {event : Event} {rest : List Char}
    (finished : finish fault make cut = .ok (event, rest)) :
    ∃ content, cut = some (content, rest) ∧ make content = event := by
  cases cut with
  | none => nomatch finished
  | some parts =>
      obtain ⟨made, rfl⟩ := Prod.mk.inj (Except.ok.inj finished)
      exact ⟨parts.1, rfl, made⟩

/-- The declaration of a document type is a spelling of the word and the content of the event. -/
theorem Event.exists_word_of_ofDeclaration {declaration content : List Char}
    (declared : ofDeclaration declaration = .ok (.doctype content)) :
    ∃ word, word.map Char.toLower = doctypeWord ∧ declaration = word ++ content := by
  rw [ofDeclaration] at declared
  split at declared
  · nomatch declared
  · rename_i spelled
    split at declared
    · nomatch declared
    · obtain rfl := Event.doctype.inj (Except.ok.inj declared)
      exact ⟨declaration.take doctypeWord.length, by simpa using spelled,
        (List.take_append_drop _ _).symm⟩

/-- Markup takes some characters. For a document type they are an exclamation mark, a spelling of
the word, the content of the event and a closing bracket. -/
theorem Event.exists_taken_of_ofMarkup {markup rest : List Char} {event : Event}
    (read : ofMarkup markup = .ok (event, rest)) :
    ∃ taken, markup = taken ++ rest ∧ ∀ content, event = .doctype content →
      ∃ word, word.map Char.toLower = doctypeWord ∧ taken = '!' :: word ++ content ++ ['>'] := by
  rw [ofMarkup.eq_def] at read
  split at read
  · obtain ⟨content, cut, rfl⟩ := finish_eq_ok read
    exact ⟨'!' :: '-' :: '-' :: (content ++ "-->".toList), by rw [Text.eq_append_of_cut? cut]; rfl,
      nofun⟩
  · nomatch read
  · obtain ⟨content, cut, rfl⟩ := finish_eq_ok read
    exact ⟨'!' :: '[' :: 'C' :: 'D' :: 'A' :: 'T' :: 'A' :: '[' :: (content ++ "]]>".toList),
      by rw [Text.eq_append_of_cut? cut]; rfl, nofun⟩
  · nomatch read
  · split at read
    · split at read
      · rename_i before after cut
        obtain ⟨declared, made, same⟩ := Outcome.map_eq_ok_iff.1 read
        obtain ⟨rfl, rfl⟩ := Prod.mk.inj same
        refine ⟨'!' :: before ++ ['>'], ?_, ?_⟩
        · rw [eq_append_of_cutDeclaration? cut]
          simp
        · rintro content rfl
          obtain ⟨word, spelled, written⟩ := exists_word_of_ofDeclaration made
          exact ⟨word, spelled, by rw [written]; rfl⟩
      · nomatch read
    · nomatch read
  · split at read
    · nomatch read
    · obtain ⟨content, cut, rfl⟩ := finish_eq_ok read
      exact ⟨'?' :: (content ++ "?>".toList), by rw [Text.eq_append_of_cut? cut]; rfl, nofun⟩
  · obtain ⟨content, cut, rfl⟩ := finish_eq_ok read
    refine ⟨'/' :: (content ++ ['>']), ?_, nofun⟩
    rw [eq_append_of_cutTag? cut]
    simp
  · obtain ⟨content, cut, rfl⟩ := finish_eq_ok read
    refine ⟨content ++ ['>'], ?_, fun inner same => ?_⟩
    · rw [eq_append_of_cutTag? cut]
      simp
    · rw [ofTag] at same
      split at same <;> nomatch same

theorem Event.length_of_ofMarkup {markup rest : List Char} {event : Event}
    (read : ofMarkup markup = .ok (event, rest)) : rest.length ≤ markup.length := by
  obtain ⟨taken, rfl, -⟩ := exists_taken_of_ofMarkup read
  rw [List.length_append]
  exact Nat.le_add_left _ _

end WorkflowBundle.Xml
