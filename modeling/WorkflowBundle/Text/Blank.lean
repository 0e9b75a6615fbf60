/-
This file fixes which characters count as white space and trims them from a text.
-/

namespace WorkflowBundle.Text

/-- These closed code point ranges hold the characters with the Unicode property White_Space. -/
def blankRanges : List (Nat × Nat) :=
  [(0x09, 0x0D), (0x20, 0x20), (0x85, 0x85), (0xA0, 0xA0), (0x1680, 0x1680), (0x2000, 0x200A),
   (0x2028, 0x2029), (0x202F, 0x202F), (0x205F, 0x205F), (0x3000, 0x3000)]

/-- A number lies in a list of closed ranges when one of them holds it. -/
def inRanges (ranges : List (Nat × Nat)) (number : Nat) : Bool :=
  ranges.any fun range => range.1 ≤ number && number ≤ range.2

/-- A character is blank when it has the Unicode property White_Space. -/
def isBlank (character : Char) : Bool :=
  inRanges blankRanges character.toNat

/-- The ASCII blanks are space, tab, line feed, form feed and carriage return. -/
def isAsciiBlank (character : Char) : Bool :=
  character == ' ' || character == '\t' || character == '\n' || character == '\x0c' ||
    character == '\r'

/-- Trimming the start drops the longest blank beginning. -/
def trimStart (text : List Char) : List Char :=
  text.dropWhile isBlank

/-- Trimming the end drops the longest blank ending. -/
def trimEnd (text : List Char) : List Char :=
  (text.reverse.dropWhile isBlank).reverse

def trim (text : String) : String :=
  String.ofList (trimEnd (trimStart text.toList))

def isBlankText (text : String) : Bool :=
  text.toList.all isBlank

theorem trimEnd_isPrefix (text : List Char) : trimEnd text <+: text := by
  have tail := List.dropWhile_suffix (l := text.reverse) isBlank
  simpa [trimEnd] using List.reverse_prefix.2 tail

theorem isBlank_getLast?_trimEnd (text : List Char) (character : Char)
    (last : (trimEnd text).getLast? = some character) : isBlank character = false := by
  have head : (text.reverse.dropWhile isBlank).head? = some character := by
    simpa [trimEnd] using last
  have := List.head?_dropWhile_not isBlank text.reverse
  simpa [head] using this

end WorkflowBundle.Text
