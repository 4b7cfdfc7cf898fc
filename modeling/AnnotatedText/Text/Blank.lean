import AnnotatedText.Text.CodeRange

/-!
# Blanks

White space as the Unicode property of that name has it: 25 code points, among them the line and
paragraph separators and the no-break spaces, but not the zero width space. Trimming takes blanks
off the ends of a text and nothing from its inside.
-/

namespace AnnotatedText.Text

/-- The intervals of the property White_Space. -/
def blankRanges : CodeRanges :=
  [(0x9, 0xD), (0x20, 0x20), (0x85, 0x85), (0xA0, 0xA0), (0x1680, 0x1680), (0x2000, 0x200A),
   (0x2028, 0x2029), (0x202F, 0x202F), (0x205F, 0x205F), (0x3000, 0x3000)]

/-- Whether the character is white space. -/
def isBlank (c : Char) : Bool := inRanges blankRanges c.toNat

/-- The text without the blanks it begins with. -/
def trimStart (cs : List Char) : List Char := cs.dropWhile isBlank

/-- The text without the blanks it ends with. -/
def trimEnd (cs : List Char) : List Char := (cs.reverse.dropWhile isBlank).reverse

/-- The text without the blanks at either end. -/
def trim (cs : List Char) : List Char := trimEnd (trimStart cs)

/-- `trim` on strings. -/
def trimmed (s : String) : String := String.ofList (trim s.toList)

/-- Whether there is nothing but blanks in the text. -/
def allBlank (cs : List Char) : Bool := cs.all isBlank

example : isBlank ' ' = true ∧ isBlank '\u3000' = true ∧ isBlank '\u200b' = false := by decide

end AnnotatedText.Text
