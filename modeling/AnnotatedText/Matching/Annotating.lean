import AnnotatedText.Document
import AnnotatedText.Matching.Worker
import AnnotatedText.Path.Reference

/-!
# Annotating with matches

The matches in a document become annotations of it: each has the bytes of its match and the type of
the match's list, and holds the attributes as values of the features that the columns name. The
types and features of all lists are looked up before anything is added; then the annotations are
added one by one, and their values set one by one.

A document may refuse each of these changes, and those made before would stay (`Edited`). That none
is refused, so that a document is annotated with all matches or not at all, is for the matches of a
worker to see to.
-/

namespace AnnotatedText

/-- Why a document is not annotated. -/
inductive AnnotatingError where
  /-- The document has another text than the one that was scanned. -/
  | otherText
  | unresolved (error : ResolutionError)
  | refused (error : AnnotationError)
  deriving DecidableEq

/-- A document as changes leave it, and what they gave or why one of them was refused. What was
changed before a refusal stays changed. -/
structure Edited (ε α : Type) where
  document : Document
  outcome : Except ε α

/-- A list in a type system: the type of its annotations and the features of its columns. -/
structure Binding where
  type : TypeId
  features : List FeatureId
  deriving DecidableEq

namespace Binding

/-- The feature of a column on the type of a list. -/
def ofColumn (ts : TypeSystem) (typeName : String) (type : TypeId) (c : Column) :
    Except ResolutionError FeatureId :=
  match ts.featureNamed? type c.name with
  | none => .error ⟨c.name, some typeName, .undefinedFeature⟩
  | some f =>
    if f.range = .scalar c.kind then .ok f.id
    else .error ⟨c.name, some typeName, .rangeRefuses c.kind⟩

/-- The features of columns on the type of a list. -/
def ofColumns (ts : TypeSystem) (typeName : String) (type : TypeId) :
    List Column → Except ResolutionError (List FeatureId)
  | [] => .ok []
  | c :: rest =>
    match ofColumn ts typeName type c with
    | .error e => .error e
    | .ok f => (ofColumns ts typeName type rest).map (f :: ·)

/-- Looks up the type and the features of a list. -/
def ofList (ts : TypeSystem) (l : SourceList) : Except ResolutionError Binding :=
  match ts.typeNamed? l.typeName with
  | none => .error ⟨l.typeName, none, .undefinedListType l.name⟩
  | some type => (ofColumns ts l.typeName type l.columns).map fun features => ⟨type, features⟩

/-- Looks up the types and the features of lists. -/
def ofLists (ts : TypeSystem) : List SourceList → Except ResolutionError (List Binding)
  | [] => .ok []
  | l :: rest =>
    match ofList ts l with
    | .error e => .error e
    | .ok b => (ofLists ts rest).map (b :: ·)

end Binding

namespace Document

/-- Sets values of features, one after the other. -/
def setValues (doc : Document) (id : AnnotationId) :
    List (FeatureId × Scalar) → Edited AnnotationError Unit
  | [] => ⟨doc, .ok ()⟩
  | (f, v) :: rest =>
    match doc.setValue id f (.scalar v) with
    | .error e => ⟨doc, .error e⟩
    | .ok doc => doc.setValues id rest

/-- Adds an annotation with values. -/
def annotateWith (doc : Document) (b : Binding) (span : Span) (values : List Scalar) :
    Edited AnnotationError AnnotationId :=
  match doc.annotate b.type span.start span.stop with
  | .error e => ⟨doc, .error e⟩
  | .ok (doc, id) =>
    let filled := doc.setValues id (b.features.zip values)
    ⟨filled.document, filled.outcome.map fun _ => id⟩

end Document

namespace Worker

/-- Adds annotations for matches whose lists are bound. -/
def annotateMatches (w : Worker) (bindings : List Binding) (doc : Document) :
    List Match → Edited AnnotationError (List AnnotationId)
  | [] => ⟨doc, .ok []⟩
  | m :: rest =>
    let binding := (bindings[m.list]?).getD ⟨TypeSystem.rootType, []⟩
    let added := doc.annotateWith binding (w.byteSpan m) (w.attributes m)
    match added.outcome with
    | .error e => ⟨added.document, .error e⟩
    | .ok id =>
      let more := w.annotateMatches bindings added.document rest
      ⟨more.document, more.outcome.map (id :: ·)⟩

/-- Annotates a document with the matches found in its text. -/
def annotate (w : Worker) (ts : TypeSystem) (doc : Document) :
    Edited AnnotatingError (List AnnotationId) :=
  if doc.text ≠ w.sentence.raw then ⟨doc, .error .otherText⟩
  else match Binding.ofLists ts w.matcher.dictionary.lists with
    | .error e => ⟨doc, .error (.unresolved e)⟩
    | .ok bindings =>
      let added := w.annotateMatches bindings doc w.found
      ⟨added.document, added.outcome.mapError .refused⟩

end Worker

end AnnotatedText
