import AnnotatedText.Text.Lowercase
import AnnotatedText.Token

/-!
# Sentences

A sentence holds a text and, once it is segmented, the spans of its tokens and the keys under which
they are looked up: the texts of the tokens, or their lower case where case is not to matter. There
is one key for each span.
-/

namespace AnnotatedText

/-- A stretch of a text between two byte offsets. -/
structure Span where
  start : Nat
  stop : Nat
  deriving DecidableEq

/-- The span of a token. -/
def Token.span (t : Token) : Span := ⟨t.start, t.stop⟩

/-- The form under which a token is looked up. -/
def foldCase (caseSensitive : Bool) (token : String) : String :=
  if caseSensitive then token else Text.lowered token

/-- A text with the tokens found in it. -/
structure Sentence where
  raw : String
  spans : List Span
  keys : List String
  deriving DecidableEq

namespace Sentence

/-- The sentence without a text. -/
def empty : Sentence := ⟨"", [], []⟩

/-- A sentence of the given text whose tokens are not looked for yet. -/
def ofText (text : String) : Sentence := ⟨text, [], []⟩

/-- The sentence with its tokens. -/
def segment (s : Sentence) (caseSensitive : Bool) : Sentence :=
  let found := tokens s.raw
  { s with
    spans := found.map Token.span
    keys := found.map fun t => foldCase caseSensitive t.text }

/-- The number of tokens. -/
def size (s : Sentence) : Nat := s.spans.length

/-- The bytes from the beginning of token `first` to the end of the token before `last`. -/
def byteSpan? (s : Sentence) (first last : Nat) : Option Span :=
  match s.spans[first]?, s.spans[last - 1]? with
  | some a, some b => some ⟨a.start, b.stop⟩
  | _, _ => none

end Sentence

end AnnotatedText
