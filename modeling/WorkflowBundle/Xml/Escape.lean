/-
This file writes text so that it can stand inside an XML document.
-/

import WorkflowBundle.Text.Search

namespace WorkflowBundle.Xml

/-- The five characters with a meaning in markup are written as entities. -/
def escapeCharacter : Char → List Char
  | '<' => "&lt;".toList
  | '>' => "&gt;".toList
  | '&' => "&amp;".toList
  | '\'' => "&apos;".toList
  | '"' => "&quot;".toList
  | character => [character]

def escape (text : String) : String :=
  String.ofList (text.toList.flatMap escapeCharacter)

def sectionStart : String := "<![CDATA["

def sectionEnd : String := "]]>"

/-- The end mark inside a text is divided between two sections. -/
def sections (text : String) : String :=
  sectionStart ++ Text.replace sectionEnd ("]]" ++ sectionEnd ++ sectionStart ++ ">") text ++
    sectionEnd

end WorkflowBundle.Xml
