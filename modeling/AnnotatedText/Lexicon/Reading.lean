import AnnotatedText.Lexicon.Basic
import AnnotatedText.Lexicon.Format
import AnnotatedText.Row
import AnnotatedText.Text.Line
import AnnotatedText.Token

/-!
# Reading a lexicon

Each line of a lexicon is read by itself: a blank line and a comment are passed over, and any other
line becomes either an entry or a diagnostic. The fields of the key are joined by blanks and cut
into tokens; the other fields are literals of the columns.

How many fields a line should have is a sum of two words of 64 bits, and it can wrap around. A line
that has as many fields as the sum then says is to be cut behind more fields than it has, and this
ends the program: nothing is read behind the line, and nothing is returned.
-/

namespace AnnotatedText

/-- The text of a lexicon's bytes. One byte order mark in front of it is no part of it. -/
def decodeLexicon (encoding : Encoding) (bytes : Bytes) : Except Text.Utf8Error String :=
  match encoding with
  | .utf8 => Text.decode (Text.dropByteOrderMark bytes)
  | .latin1 => .ok (String.ofList (bytes.map fun b => Char.ofNat b.toNat))

/-- Whether a line holds neither an entry nor a fault: it is blank or a comment. -/
def isPassedOver (line : List Char) : Bool :=
  Text.allBlank line || ['/', '/'].isPrefixOf line

/-- Reads the literals of the columns, up to the first one that is no value of its column. -/
def readAttributes : List String → List Column → Except EntryFault (List Scalar)
  | literal :: literals, column :: columns =>
    match Scalar.read? literal column.kind with
    | none => .error (.badLiteral literal column)
    | some v => (readAttributes literals columns).map (v :: ·)
  | _, _ => .ok []

/-- The number of fields that a line should have: those of the key and those of the columns, added
up as words of 64 bits. -/
def expectedFields (format : LexiconFormat) (columns : List Column) : Nat :=
  (UInt64.ofNat format.keyFields + UInt64.ofNat columns.length).toNat

/-- The entry of fields of which the first `keyFields` are those of the key. -/
def entryOf (keyFields : Nat) (columns : List Column) (fields : List String) :
    Except EntryFault Entry :=
  let key := tokenize (" ".intercalate (fields.take keyFields))
  if key = [] then .error .emptyKey
  else (readAttributes (fields.drop keyFields) columns).map fun values => ⟨key, values⟩

/-- Reads the entry of a line. There is no outcome if the line has the expected number of fields, but
these are not those of the key and those of the columns: then it is parted behind more fields than
there are, see `readEntry_eq`. -/
def readEntry (format : LexiconFormat) (columns : List Column) (line : List Char) :
    Option (Except EntryFault Entry) :=
  let fields := Row.fields format.delimiter (String.ofList line)
  let expected := expectedFields format columns
  if fields.length ≠ format.keyFields + columns.length then
    if fields.length = expected then none
    else some (.error (.fieldCount expected fields.length))
  else some (entryOf format.keyFields columns fields)

/-- The lines of a lexicon. A carriage return that still ends a line is taken off it. -/
def lexiconLines (text : String) : List (List Char) :=
  (Text.lines text.toList).map fun line => (Text.dropSuffix '\r' line).getD line

/-- What was read of lines: those that are not passed over, each with its number, as an entry or a
fault. Behind a line without an outcome nothing is read. -/
structure LinesRead where
  found : List (Nat × Except EntryFault Entry)
  brokenOff : Bool

/-- Reads lines of which the first has the number `number`. -/
def readLinesFrom (format : LexiconFormat) (columns : List Column) (number : Nat) :
    List (List Char) → LinesRead
  | [] => ⟨[], false⟩
  | line :: rest =>
    if isPassedOver line then readLinesFrom format columns (number + 1) rest
    else match readEntry format columns line with
      | none => ⟨[], true⟩
      | some outcome =>
        let more := readLinesFrom format columns (number + 1) rest
        { more with found := (number, outcome) :: more.found }

/-- The entries of a list with the diagnostics of what is none. -/
structure Harvest where
  entries : List Entry
  diagnostics : List Diagnostic
  deriving DecidableEq

/-- Sorts what was read into entries and diagnostics, each in order. -/
def harvest (source : String) : List (Nat × Except EntryFault Entry) → Harvest
  | [] => ⟨[], []⟩
  | (_, .ok entry) :: rest =>
    let more := harvest source rest
    ⟨entry :: more.entries, more.diagnostics⟩
  | (line, .error fault) :: rest =>
    let more := harvest source rest
    ⟨more.entries, ⟨source, line, fault⟩ :: more.diagnostics⟩

/-- Reads lines of a list of which the first has the number `number`. If the reading is broken off,
nothing but the diagnostics of the lines before is left of it. -/
def readLines (list : SourceList) (format : LexiconFormat) (number : Nat)
    (lines : List (List Char)) : Except (List Diagnostic) Harvest :=
  let read := readLinesFrom format list.columns number lines
  let found := harvest list.name read.found
  if read.brokenOff then .error found.diagnostics else .ok found

/-- Reads the text of a lexicon. -/
def readLexicon (list : SourceList) (format : LexiconFormat) (text : String) :
    Except (List Diagnostic) Harvest :=
  readLines list format 1 (lexiconLines text)

/-- Sorts entries that are given as such: those without a key or with attributes that do not fit the
columns are faults, numbered by their places. -/
def checkEntriesFrom (columns : List Column) (number : Nat) :
    List Entry → List (Nat × Except EntryFault Entry)
  | [] => []
  | entry :: rest =>
    (number,
      if entry.tokens ≠ [] ∧ fitsColumns entry.attributes columns then .ok entry
      else .error .columnMismatch) :: checkEntriesFrom columns (number + 1) rest

/-- Checks given entries against the columns of a list. -/
def checkEntries (list : SourceList) (entries : List Entry) : Harvest :=
  harvest list.name (checkEntriesFrom list.columns 1 entries)

end AnnotatedText
