import AnnotatedText.Text.Utf8

/-!
# Delimited rows

A row is a record of fields between delimiters. A field that begins with a quote goes on to the
next quote that is not doubled, and holds whatever stands between, delimiters and line ends
included. The reader works on bytes and takes the first record only: it skips line ends in front of
it and stops at the line end behind it.

The reader is a machine of five states. `step` says what a byte means in a state, and `fieldsFrom`
collects the fields; a byte is consumed at every step, so the recursion is on the bytes.
-/

namespace AnnotatedText.Row

/-- Where in a record the reader stands. -/
inductive State where
  | recordStart
  | fieldStart
  | inField
  | quoted
  | afterQuote
  deriving DecidableEq

/-- What the reader does with a byte. -/
inductive Action where
  /-- It is a line end in front of the record. -/
  | skip
  /-- It only moves the reader to another state. -/
  | enter (state : State)
  /-- It belongs to the field. -/
  | add (state : State)
  | endField
  | endRecord
  deriving DecidableEq

/-- The byte that encloses quoted fields. -/
def quoteByte : UInt8 := 0x22

/-- Whether the byte ends a record. -/
def isTerminator (b : UInt8) : Bool := b == 0x0D || b == 0x0A

/-- What a byte means that is no quote with a meaning of its own. -/
def plainStep (delimiter b : UInt8) : Action :=
  if b = delimiter then .endField
  else if isTerminator b then .endRecord
  else .add .inField

/-- What the byte `b` means in a state. -/
def step (delimiter : UInt8) : State → UInt8 → Action
  | .recordStart, b =>
    if isTerminator b then .skip
    else if b = quoteByte then .enter .quoted
    else plainStep delimiter b
  | .fieldStart, b => if b = quoteByte then .enter .quoted else plainStep delimiter b
  | .inField, b => plainStep delimiter b
  | .quoted, b => if b = quoteByte then .enter .afterQuote else .add .quoted
  | .afterQuote, b => if b = quoteByte then .add .quoted else plainStep delimiter b

/-- Puts a byte in front of the first field. -/
def prepend (b : UInt8) : List Bytes → List Bytes
  | [] => [[b]]
  | field :: fields => (b :: field) :: fields

/-- The fields that the bytes add to a record, the one the reader stands in first. -/
def fieldsFrom (delimiter : UInt8) : State → Bytes → List Bytes
  | .recordStart, [] => []
  | _, [] => [[]]
  | state, b :: rest =>
    match step delimiter state b with
    | .skip => fieldsFrom delimiter .recordStart rest
    | .enter next => fieldsFrom delimiter next rest
    | .add next => prepend b (fieldsFrom delimiter next rest)
    | .endField => [] :: fieldsFrom delimiter .fieldStart rest
    | .endRecord => [[]]

/-- The fields of a row as byte strings. One byte order mark in front of it is no part of it. -/
def byteFields (delimiter : UInt8) (row : Bytes) : List Bytes :=
  fieldsFrom delimiter .recordStart (Text.dropByteOrderMark row)

/-- The fields of a row. A delimiter that is no ASCII character may cut a character in two; the
parts are then shown by replacement characters. -/
def fields (delimiter : UInt8) (row : String) : List String :=
  (byteFields delimiter (Text.encode row)).map Text.decodeLossy

end AnnotatedText.Row
