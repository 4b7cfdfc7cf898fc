import AnnotatedText.Path.Basic
import AnnotatedText.Path.Reference

/-!
# Resolution of feature paths

Resolution follows the written segments from a type on. While the type is known each name must be a
feature that the type sees, or stand for the covered text; the range of the feature gives the type
of the next segment, if it is one of annotations. Behind an array without an index, a scalar or an
unbound segment the type is unknown, and so are all types behind it. Nothing follows the covered
text.

`FeaturePath.resolve` is a fold over the segments with what is known of the type as its state
(`Cursor`); a segment is first read, then refused behind the covered text, then bound.
-/

namespace AnnotatedText

/-- What is known of the annotations that a path has reached. -/
inductive Cursor where
  | known (type : TypeId)
  | unknown
  /-- The covered text is reached. -/
  | text
  deriving DecidableEq

namespace Cursor

/-- What is known at the start of a path. -/
def ofStart : Option TypeId → Cursor
  | some t => known t
  | none => unknown

/-- What is known behind a feature, with an index or without one. -/
def behindRange : Range → Option Nat → Cursor
  | .reference t, _ => known t
  | .array (.reference t), some _ => known t
  | .array (.reference _), none | .array (.scalar _), _ | .scalar _, _ => unknown

/-- What is known behind a feature of a type system. -/
def behindFeature (ts : TypeSystem) (f : FeatureId) (index? : Option Nat) : Cursor :=
  match ts.feature? f with
  | some feature => behindRange feature.range index?
  | none => unknown

/-- What is known behind a segment. -/
def behind (ts : TypeSystem) : Segment → Cursor
  | .named _ f => behindFeature ts f none
  | .indexed _ f i => behindFeature ts f (some i)
  | .coveredText => text
  | .unbound _ _ => unknown

end Cursor

namespace Segment

/-- The segment for the covered text, which takes no index. -/
def ofText (raw : String) (r : Reference) : Except ResolutionError Segment :=
  match r.index? with
  | some _ => .error ⟨raw, none, .textIndexed⟩
  | none => .ok coveredText

/-- The segment for a feature. -/
def ofFeature (r : Reference) (f : Feature) : Segment :=
  match r.index? with
  | some i => indexed r.name f.id i
  | none => named r.name f.id

/-- Binds a reference to a feature that a type sees. -/
def onType (ts : TypeSystem) (t : TypeId) (raw : String) (r : Reference) :
    Except ResolutionError Segment :=
  match ts.featureNamed? t r.name with
  | some f => .ok (ofFeature r f)
  | none =>
    if r.name = coveredTextShortName then ofText raw r
    else .error ⟨raw, some (ts.typeName t), .inaccessibleFeature⟩

/-- Binds a reference to what is known where it stands. -/
def bind (ts : TypeSystem) (cursor : Cursor) (raw : String) (r : Reference) :
    Except ResolutionError Segment :=
  if cursor = .text then .error ⟨raw, none, .textHasNoFeatures⟩
  else if r.name = coveredTextName then ofText raw r
  else match cursor with
    | .known t => onType ts t raw r
    | .unknown | .text => .ok (unbound r.name r.index?)

/-- Reads and binds a written segment. -/
def resolve (ts : TypeSystem) (cursor : Cursor) (raw : String) : Except ResolutionError Segment :=
  match Reference.read raw with
  | .error e => .error e
  | .ok r => bind ts cursor raw r

end Segment

namespace FeaturePath

/-- The segments for written ones from a cursor on. -/
def resolveFrom (ts : TypeSystem) (cursor : Cursor) :
    List String → Except ResolutionError (List Segment)
  | [] => .ok []
  | raw :: rest =>
    match Segment.resolve ts cursor raw with
    | .error e => .error e
    | .ok s =>
      match resolveFrom ts (Cursor.behind ts s) rest with
      | .error e => .error e
      | .ok segments => .ok (s :: segments)

/-- Resolves written segments from a type on, or from an unknown one. -/
def resolve (ts : TypeSystem) (start? : Option TypeId) (raw : List String) :
    Except ResolutionError FeaturePath :=
  match resolveFrom ts (.ofStart start?) raw with
  | .error e => .error e
  | .ok segments => .ok ⟨start?, segments⟩

/-- Resolves a written path. -/
def resolvePath (ts : TypeSystem) (start? : Option TypeId) (path : String) :
    Except ResolutionError FeaturePath :=
  match splitPath path with
  | .error e => .error e
  | .ok raw => resolve ts start? raw

end FeaturePath

end AnnotatedText
