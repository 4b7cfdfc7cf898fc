/-!
# The format of a lexicon

How the bytes of a lexicon are read: their encoding, the delimiter of the fields of a line, and how
many fields make up the key of an entry.
-/

namespace AnnotatedText

/-- A character encoding. In Latin-1 each byte is the code point of its character. -/
inductive Encoding where
  | utf8
  | latin1
  deriving DecidableEq

namespace Encoding

/-- The name of the encoding. -/
def name : Encoding → String
  | utf8 => "UTF-8"
  | latin1 => "ISO-8859-1"

/-- A name with its letters in lower case and its underscores as hyphens. -/
def normalize (name : String) : String :=
  String.ofList (name.toList.map fun c => if c = '_' then '-' else c.toLower)

/-- The encoding of the given name. -/
def ofName? (name : String) : Option Encoding :=
  let key := normalize name
  if key = "utf-8" ∨ key = "utf8" then some utf8
  else if key = "iso-8859-1" ∨ key = "latin1" ∨ key = "latin-1" then some latin1
  else none

/-- What is said of a name that names no encoding. -/
def unknownMessage : String := "Could not parse an encoding"

end Encoding

/-- The format of a lexicon. -/
structure LexiconFormat where
  delimiter : UInt8
  keyFields : Nat
  encoding : Encoding
  deriving DecidableEq

/-- The format in which fields are separated by semicolons and the first one is the key. -/
def LexiconFormat.standard : LexiconFormat := ⟨0x3B, 1, .utf8⟩

end AnnotatedText
