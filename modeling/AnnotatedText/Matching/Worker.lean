import AnnotatedText.Matching.Scan

/-!
# Workers

A worker scans one text after another with a dictionary. It holds the text with its tokens and the
matches of the last scan of it; a new text has none until it is scanned.
-/

namespace AnnotatedText

/-- A dictionary with the way in which it is scanned for. -/
structure Matcher where
  dictionary : Dictionary
  overlap : Bool
  scope : MatchScope
  deriving DecidableEq

/-- A matcher at work on a text. -/
structure Worker where
  matcher : Matcher
  sentence : Sentence
  found : List Match
  deriving DecidableEq

namespace Worker

/-- A worker without a text. -/
def ofMatcher (m : Matcher) : Worker := ⟨m, .empty, []⟩

/-- The worker with another text. -/
def reset (w : Worker) (text : String) : Worker :=
  { w with
    sentence := (Sentence.ofText text).segment w.matcher.dictionary.caseSensitive
    found := [] }

/-- The worker with the matches in its text. -/
def scan (w : Worker) : Worker :=
  { w with
    found := Scan.run w.matcher.dictionary w.matcher.scope w.matcher.overlap w.sentence.keys }

/-- The bytes of a match. -/
def byteSpan (w : Worker) (m : Match) : Span := (w.sentence.byteSpan? m.start m.stop).getD ⟨0, 0⟩

/-- The text of a match, with the blanks between its tokens. -/
def surface (w : Worker) (m : Match) : String :=
  let span := w.byteSpan m
  (Text.slice? w.sentence.raw span.start span.stop).getD ""

/-- The list of a match. -/
def list? (w : Worker) (m : Match) : Option SourceList := w.matcher.dictionary.lists[m.list]?

/-- The name of the list of a match. -/
def listName (w : Worker) (m : Match) : String := ((w.list? m).map SourceList.name).getD ""

/-- The type of the annotations that a match gives rise to. -/
def typeName (w : Worker) (m : Match) : String := ((w.list? m).map SourceList.typeName).getD ""

/-- The attributes of a match, in the order of the columns of its list. -/
def attributes (w : Worker) (m : Match) : List Scalar :=
  (Trie.attributesOf (w.matcher.dictionary.trie.markersAt m.node) m.list).getD []

/-- A match as it is shown in a diagnostic. -/
def inspect (w : Worker) (m : Match) : String :=
  let span := w.byteSpan m
  "DictMatch \x7b surface: " ++ Text.quoted (w.surface m) ++
    ", range_byte: " ++ toString span.start ++ ".." ++ toString span.stop ++
    ", type_name: " ++ Text.quoted (w.typeName m) ++
    ", attributes: [" ++ ", ".intercalate ((w.attributes m).map Scalar.inspect) ++ "] \x7d"

end Worker

end AnnotatedText
