import AnnotatedText.Scalar
import AnnotatedText.Sentence
import AnnotatedText.TypeSystem

/-!
# Annotated documents

A document is a text with annotations: spans of it that have a type and hold values for features.
A value may refer to other annotations of the document, in circles too. Annotations are only ever
added, so the place of an annotation identifies it for good.

Annotations are compared by their beginnings, then their ends, their types and at last their places
(`Annotation.compare`), so two of a document are equal in this order only if they are the same.
-/

namespace AnnotatedText

/-- The place of an annotation in its document. -/
structure AnnotationId where
  index : Nat
  deriving DecidableEq

/-- A value of a feature. -/
inductive Value where
  | scalar (s : Scalar)
  | reference (id : AnnotationId)
  | array (items : List Value)
  deriving Inhabited

namespace Value

/-- What the value is called in an error. -/
def kindName : Value → String
  | scalar s => s.kind.name
  | reference _ => "Reference"
  | array _ => "Array"

/-- The annotation that the value refers to. -/
def reference? : Value → Option AnnotationId
  | reference id => some id
  | scalar _ | array _ => none

mutual

/-- Whether every annotation that occurs in the value is one of the first `count`. -/
def refersBelow (count : Nat) : Value → Bool
  | scalar _ => true
  | reference id => decide (id.index < count)
  | array items => allReferBelow count items

/-- `refersBelow` for each of the values. -/
def allReferBelow (count : Nat) : List Value → Bool
  | [] => true
  | v :: rest => refersBelow count v && allReferBelow count rest

end

end Value

/-- An annotation: its place, its span, its type and the values of its features, in the order of
the features. -/
structure Annotation where
  id : AnnotationId
  span : Span
  type : TypeId
  values : List (FeatureId × Value)

namespace Annotation

/-- The value of a feature. -/
def value? (a : Annotation) (f : FeatureId) : Option Value :=
  (a.values.find? (·.1 == f)).map Prod.snd

/-- Puts a value at the place of its feature, in the stead of the one there. -/
def insertValue (f : FeatureId) (v : Value) : List (FeatureId × Value) → List (FeatureId × Value)
  | [] => [(f, v)]
  | (g, w) :: rest =>
    if f = g then (f, v) :: rest
    else if f.index < g.index then (f, v) :: (g, w) :: rest
    else (g, w) :: insertValue f v rest

/-- The annotation with a new value of a feature. -/
def withValue (a : Annotation) (f : FeatureId) (v : Value) : Annotation :=
  { a with values := insertValue f v a.values }

/-- The order of annotations. -/
def compare (a b : Annotation) : Ordering :=
  (Ord.compare a.span.start b.span.start).then <|
    (Ord.compare a.span.stop b.span.stop).then <|
      (Ord.compare a.type.index b.type.index).then (Ord.compare a.id.index b.id.index)

end Annotation

/-- A text with its annotations, each at its place. -/
structure Document where
  text : String
  annotations : List Annotation

/-- Why a document refuses a change. -/
inductive AnnotationError where
  | invalidSpan (start stop : Nat)
  | danglingReference
  | unknownId
  | noPlace
  deriving DecidableEq

/-- The argument of the change that is at fault, if one is. -/
def AnnotationError.argument? : AnnotationError → Option String
  | invalidSpan _ _ => some "begin/end"
  | danglingReference => some "value"
  | unknownId => some "id"
  | noPlace => none

/-- What is wrong. -/
def AnnotationError.reason : AnnotationError → String
  | invalidSpan start stop => s!"span {start}..{stop} is not a valid span of the document"
  | danglingReference => "references an annotation outside of this document"
  | unknownId => "unknown annotation"
  | noPlace => PlaceError.noPlace.message

namespace Document

/-- A document without annotations. -/
def ofText (text : String) : Document := ⟨text, []⟩

/-- The number of annotations. -/
def size (doc : Document) : Nat := doc.annotations.length

/-- The annotation at a place. -/
def find? (doc : Document) (id : AnnotationId) : Option Annotation :=
  doc.annotations[id.index]?

/-- The text that an annotation covers. -/
def coveredText (doc : Document) (a : Annotation) : String :=
  (Text.slice? doc.text a.span.start a.span.stop).getD ""

/-- Adds an annotation without values. Its span must lie in the text, in order and at character
boundaries, and there must be a place for it. -/
def annotate (doc : Document) (type : TypeId) (start stop : Nat) :
    Except AnnotationError (Document × AnnotationId) :=
  match Text.slice? doc.text start stop with
  | none => .error (.invalidSpan start stop)
  | some _ =>
    if doc.size < placeLimit then
      let id : AnnotationId := ⟨doc.size⟩
      .ok ({ doc with annotations := doc.annotations ++ [⟨id, ⟨start, stop⟩, type, []⟩] }, id)
    else .error .noPlace

/-- Sets a value of a feature. -/
def setValue (doc : Document) (id : AnnotationId) (f : FeatureId) (v : Value) :
    Except AnnotationError Document :=
  if !v.refersBelow doc.size then .error .danglingReference
  else match doc.find? id with
    | none => .error .unknownId
    | some a => .ok { doc with annotations := doc.annotations.set id.index (a.withValue f v) }

/-- The annotations of a type or one below it, in order. -/
def select (doc : Document) (ts : TypeSystem) (t : TypeId) : List Annotation :=
  (doc.annotations.filter fun a => ts.subsumes t a.type).mergeSort
    fun a b => (a.compare b).isLE

end Document

end AnnotatedText
