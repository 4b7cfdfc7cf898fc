import AnnotatedText.Row

/-!
# Quoted rows

The written form of a record in which every field is enclosed in quotes, with the quotes inside it
doubled, in bytes and as a text.
-/

namespace AnnotatedText.Row

/-- The bytes of a field with every quote doubled. -/
def doubleQuotes : Bytes → Bytes
  | [] => []
  | b :: rest =>
    if b = quoteByte then quoteByte :: quoteByte :: doubleQuotes rest else b :: doubleQuotes rest

/-- A field between quotes. -/
def quoteField (field : Bytes) : Bytes := quoteByte :: doubleQuotes field ++ [quoteByte]

/-- A row of quoted fields. -/
def quoteRow (delimiter : UInt8) : List Bytes → Bytes
  | [] => []
  | [field] => quoteField field
  | field :: rest => quoteField field ++ delimiter :: quoteRow delimiter rest

/-! ### The text of a row -/

/-- The character of a delimiter. -/
def mark (delimiter : UInt8) : Char := Char.ofNat delimiter.toNat

/-- The text of a field between quotes, with every quote inside it doubled. -/
def enclose (field : List Char) : List Char :=
  '"' :: field.flatMap (fun c => if c = '"' then ['"', '"'] else [c]) ++ ['"']

/-- The text of a row of enclosed fields. -/
def encloseAll (delimiter : UInt8) : List String → List Char
  | [] => []
  | [field] => enclose field.toList
  | field :: rest => enclose field.toList ++ mark delimiter :: encloseAll delimiter rest

/-! ### Reading a quoted field -/

/-- A quoted field is read back, and the reader goes on behind its closing quote. -/
theorem fieldsFrom_quoted (delimiter : UInt8) (field rest : Bytes) :
    fieldsFrom delimiter .quoted (doubleQuotes field ++ quoteByte :: rest) =
      field.foldr prepend (fieldsFrom delimiter .afterQuote rest) := by
  induction field with
  | nil => simp [doubleQuotes, fieldsFrom, step]
  | cons b bs ih =>
    by_cases h : b = quoteByte
    · simp [doubleQuotes, h, fieldsFrom, step, ih]
    · simp [doubleQuotes, h, fieldsFrom, step, ih]

end AnnotatedText.Row
