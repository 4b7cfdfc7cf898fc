import AnnotatedText.Kind
import AnnotatedText.Place

/-!
# Type systems

The types of annotations form a tree below the root type, and each type declares features: named
places for values of a range. A type sees the features that it or one of the types above it
declares, the nearest first.

A type system is built by declarations, beginning with the one that has nothing but the root. A
type is declared below a type that is there already, so each parent comes before its children, and
the way up from a type (`TypeSystem.lineage`) is a recursion on the place of the type.
-/

namespace AnnotatedText

/-- The place of a type among the types of a system. -/
structure TypeId where
  index : Nat
  deriving DecidableEq

/-- The place of a feature among the features of a system. -/
structure FeatureId where
  index : Nat
  deriving DecidableEq

/-- What the elements of an array are. -/
inductive Element where
  | scalar (kind : Kind)
  | reference (type : TypeId)
  deriving DecidableEq

/-- What the values of a feature are. -/
inductive Range where
  | scalar (kind : Kind)
  | reference (type : TypeId)
  | array (element : Element)
  deriving DecidableEq

namespace Range

/-- Whether the values are scalars. -/
def isScalar : Range → Bool
  | scalar _ => true
  | reference _ | array _ => false

/-- The type of annotations that the range mentions. -/
def mentioned? : Range → Option TypeId
  | reference t | array (.reference t) => some t
  | scalar _ | array (.scalar _) => none

end Range

/-- A feature: its place, its name, the type that declares it and its range. -/
structure Feature where
  id : FeatureId
  name : String
  domain : TypeId
  range : Range
  deriving DecidableEq

/-- A type: its name and the type above it. -/
structure TypeEntry where
  name : String
  parent? : Option TypeId
  deriving DecidableEq

/-- The types and the features that are declared, each at its place. -/
structure TypeSystem where
  types : List TypeEntry
  features : List Feature
  deriving DecidableEq

/-- Why a declaration is refused. -/
inductive DeclarationError where
  | duplicateType (name : String)
  | unknownParent (name : String)
  | unknownType
  | unknownRange
  /-- The type `owner` declares a feature of that name already. -/
  | duplicateFeature (name owner : String)
  | noPlace
  deriving DecidableEq

/-- The argument of the declaration that is at fault, if one is. -/
def DeclarationError.argument? : DeclarationError → Option String
  | duplicateType _ => some "name"
  | unknownParent _ => some "parent"
  | unknownType => some "ty"
  | unknownRange => some "range"
  | duplicateFeature _ _ => some "name"
  | noPlace => none

/-- What is wrong. -/
def DeclarationError.reason : DeclarationError → String
  | duplicateType name => "type " ++ name ++ " is already declared"
  | unknownParent name => "unknown parent type " ++ name
  | unknownType => "unknown type id"
  | unknownRange => "unknown range type"
  | duplicateFeature name owner => "feature " ++ name ++ " is already declared on " ++ owner
  | noPlace => PlaceError.noPlace.message

namespace TypeSystem

/-- The name of the root type. -/
def rootName : String := "uima.tcas.Annotation"

/-- The root type. -/
def rootType : TypeId := ⟨0⟩

/-- The type system of the root type alone. -/
def root : TypeSystem := ⟨[⟨rootName, none⟩], []⟩

/-- The type of the given name. -/
def typeNamed? (ts : TypeSystem) (name : String) : Option TypeId :=
  (ts.types.findIdx? (·.name == name)).map TypeId.mk

/-- The name of a type. -/
def typeName (ts : TypeSystem) (t : TypeId) : String :=
  match ts.types[t.index]? with
  | some entry => entry.name
  | none => ""

/-- The type above a type. -/
def parent? (ts : TypeSystem) (t : TypeId) : Option TypeId :=
  (ts.types[t.index]?).bind TypeEntry.parent?

/-- The type and the types above it, up to the root. -/
def lineage (ts : TypeSystem) (t : TypeId) : List TypeId :=
  match ts.parent? t with
  | none => [t]
  | some p => if p.index < t.index then t :: ts.lineage p else [t]
  termination_by t.index

/-- Whether `sub` is the type `sup` or one below it. -/
def subsumes (ts : TypeSystem) (sup sub : TypeId) : Bool := (ts.lineage sub).contains sup

/-- The feature at a place. -/
def feature? (ts : TypeSystem) (f : FeatureId) : Option Feature := ts.features[f.index]?

/-- The feature of the given name that the type itself declares. -/
def ownFeature? (ts : TypeSystem) (t : TypeId) (name : String) : Option Feature :=
  ts.features.find? fun f => f.domain == t && f.name == name

/-- The feature of the given name that the type sees: the one declared nearest to it. -/
def featureNamed? (ts : TypeSystem) (t : TypeId) (name : String) : Option Feature :=
  (ts.lineage t).findSome? (ts.ownFeature? · name)

/-- Declares a type below the type named `parent`, if there is a place for it. -/
def declareType (ts : TypeSystem) (name parent : String) :
    Except DeclarationError (TypeSystem × TypeId) :=
  if (ts.typeNamed? name).isSome then .error (.duplicateType name)
  else match ts.typeNamed? parent with
    | none => .error (.unknownParent parent)
    | some p =>
      if ts.types.length < placeLimit then
        .ok ({ ts with types := ts.types ++ [⟨name, some p⟩] }, ⟨ts.types.length⟩)
      else .error .noPlace

/-- Whether there is a type at the place. -/
def hasType (ts : TypeSystem) (t : TypeId) : Bool := decide (t.index < ts.types.length)

/-- Declares a feature on a type, if there is a place for it. The types above it must not declare one
of that name. -/
def declareFeature (ts : TypeSystem) (t : TypeId) (name : String) (range : Range) :
    Except DeclarationError (TypeSystem × FeatureId) :=
  if !ts.hasType t then .error .unknownType
  else if range.mentioned?.any (!ts.hasType ·) then .error .unknownRange
  else match (ts.lineage t).find? fun u => (ts.ownFeature? u name).isSome with
    | some owner => .error (.duplicateFeature name (ts.typeName owner))
    | none =>
      if ts.features.length < placeLimit then
        let id : FeatureId := ⟨ts.features.length⟩
        .ok ({ ts with features := ts.features ++ [⟨id, name, t, range⟩] }, id)
      else .error .noPlace

end TypeSystem

end AnnotatedText
