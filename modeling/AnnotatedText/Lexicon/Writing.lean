import AnnotatedText.Lexicon.Basic
import AnnotatedText.Row.Quoted

/-!
# Writing a lexicon

The form in which entries are written as a lexicon: a line for each, with all of its fields enclosed
in quotes. The first field is the key, its tokens joined by blanks, and the others are the
attributes as plain texts.
-/

namespace AnnotatedText

/-- The fields of the line of an entry. -/
def Entry.fields (e : Entry) : List String :=
  " ".intercalate e.tokens :: e.attributes.map Scalar.display

/-- The text of a lexicon of entries. -/
def writeLexicon (delimiter : UInt8) (entries : List Entry) : String :=
  String.ofList (entries.flatMap fun e => Row.encloseAll delimiter e.fields ++ ['\n'])

end AnnotatedText
