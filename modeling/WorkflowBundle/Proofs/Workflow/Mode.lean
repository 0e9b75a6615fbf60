/-
This file says which values name a mode.
-/

import WorkflowBundle.Proofs.Decimal
import WorkflowBundle.Variable.Value
import WorkflowBundle.Workflow.Mode

namespace WorkflowBundle

open Variable (Value)

theorem Text.mem_of_mem_trim {text : String} {character : Char}
    (member : character ∈ (trim text).toList) : character ∈ text.toList := by
  rw [trim, String.toList_ofList] at member
  exact (List.dropWhile_suffix _).subset ((trimEnd_isPrefix _).subset member)

namespace Mode

/-- A numeral has digits, signs and points only. -/
def IsNumeral (text : String) : Prop :=
  ∀ character ∈ text.toList, character.isDigit = true ∨ character = '-' ∨ character = '.'

theorem toLower_of_isDigit {character : Char} (digit : character.isDigit = true) :
    character.toLower = character := by
  have small : character.val ≤ '9'.val := of_decide_eq_true (Bool.and_eq_true_iff.1 digit).2
  refine dif_neg ?_
  intro upper
  exact absurd (UInt32.le_trans upper.1 small) (by decide)

/-- A numeral names no mode. -/
theorem ofText?_of_isNumeral {text : String} (numeral : IsNumeral text) :
    ofText? text = none := by
  rcases named : ofText? text with _ | mode
  · rfl
  · have trimmed : IsNumeral (Text.trim text) :=
      fun character member => numeral character (Text.mem_of_mem_trim member)
    have kept : (Text.trim text).toList.map Char.toLower = (Text.trim text).toList := by
      refine (List.map_congr_left ?_).trans (List.map_id _)
      intro character member
      rcases trimmed character member with digit | rfl | rfl
      · exact toLower_of_isDigit digit
      · rfl
      · rfl
    have word := List.find?_some named
    simp only [kept, String.ofList_toList, Bool.or_eq_true, beq_iff_eq] at word
    rcases word with code | name
    · rw [code] at trimmed
      cases mode <;> simp [IsNumeral, Mode.code] at trimmed
    · rw [name] at trimmed
      cases mode <;> simp [IsNumeral, Mode.name] at trimmed

theorem ofText?_binary (number : Binary64) : ofText? (Value.numberStyle.write number) = none := by
  cases number with
  | nan => decide
  | infinite negative => cases negative <;> decide
  | finite negative mantissa exponent =>
      apply ofText?_of_isNumeral
      intro character member
      have positional (member : character ∈ (Decimal.writePositional ""
          (Decimal.shortest .up mantissa exponent)).toList) :
          character.isDigit = true ∨ character = '-' ∨ character = '.' := by
        rcases Decimal.mem_writePositional member with digit | point | ending
        · exact .inl digit
        · exact .inr (.inr point)
        · nomatch ending
      simp only [Decimal.Style.write, Value.numberStyle, if_true] at member
      split at member
      · rw [String.toList_append] at member
        rcases List.mem_append.1 member with sign | member
        · exact .inr (.inl (List.mem_singleton.1 sign))
        · exact positional member
      · exact positional member

/-- Only texts name modes, as written or with placeholders. -/
theorem text?_of_ofText? {value : Value} {mode : Mode} (named : ofText? value.render = some mode) :
    value.text? = some value.render := by
  cases value with
  | text value => rfl
  | unresolved value => rfl
  | boolean value =>
      have unnamed : ofText? (Value.boolean value).render = none := by
        cases value <;> decide
      nomatch unnamed.symm.trans named
  | integer value =>
      have unnamed : ofText? (toString value) = none :=
        ofText?_of_isNumeral fun character member =>
          (Decimal.mem_toString_int member).imp_right .inl
      nomatch unnamed.symm.trans named
  | binary value => nomatch (ofText?_binary value).symm.trans named

theorem ofText?_code (mode : Mode) : ofText? mode.code = some mode := by
  cases mode <;> decide

end Mode

end WorkflowBundle
