import AnnotatedText.Text.Printable

/-!
# Quoted texts

The form in which a diagnostic shows a text or a character: between quotes, with the quote and the
backslash escaped, the usual controls by their letters, and every other character that has no shape
of its own by its code point. Only the quote that encloses the form is escaped in it.
-/

namespace AnnotatedText.Text

/-- The lower-case hexadecimal digits of a number, without leading zeros. -/
def hexNumber (n : Nat) : List Char := Nat.toDigits 16 n

/-- The form of one character between quotes of the kind `quote`. -/
def quotedChar (quote c : Char) : List Char :=
  if c = '\x00' then ['\\', '0']
  else if c = '\t' then ['\\', 't']
  else if c = '\r' then ['\\', 'r']
  else if c = '\n' then ['\\', 'n']
  else if c = '\\' ∨ c = quote then ['\\', c]
  else if isPrintable c then [c]
  else ['\\', 'u', '\x7b'] ++ hexNumber c.toNat ++ ['\x7d']

/-- The quoted form of a text. -/
def quoted (s : String) : String :=
  String.ofList ('"' :: s.toList.flatMap (quotedChar '"') ++ ['"'])

/-- The quoted form of a character. -/
def quotedAlone (c : Char) : String := String.ofList ('\x27' :: quotedChar '\x27' c ++ ['\x27'])

end AnnotatedText.Text
