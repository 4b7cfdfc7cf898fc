import AnnotatedText.TypeSystem

/-!
# Feature paths

A feature path leads from an annotation through features to values. A segment is bound to a feature
where the type it starts from is known; otherwise it keeps its name and is bound anew to the type of
each annotation that a walk reaches with it. The text that an annotation covers ends a path.
-/

namespace AnnotatedText

/-- A segment of a feature path. -/
inductive Segment where
  | named (name : String) (feature : FeatureId)
  | indexed (name : String) (feature : FeatureId) (index : Nat)
  | coveredText
  /-- A segment that is bound during the walk. -/
  | unbound (name : String) (index? : Option Nat)
  deriving DecidableEq

/-- The name that stands for the covered text. -/
def coveredTextName : String := "coveredText"

/-- The short name that stands for the covered text where no feature has it. -/
def coveredTextShortName : String := "ct"

namespace Segment

/-- The name of the segment. -/
def name : Segment → String
  | named n _ | indexed n _ _ | unbound n _ => n
  | coveredText => coveredTextName

/-- The index of the segment. -/
def index? : Segment → Option Nat
  | indexed _ _ i => some i
  | unbound _ i? => i?
  | named _ _ | coveredText => none

/-- The feature that the segment is bound to. -/
def feature? : Segment → Option FeatureId
  | named _ f | indexed _ f _ => some f
  | coveredText | unbound _ _ => none

/-- Whether the segment is bound during the walk. -/
def isUnbound : Segment → Bool
  | unbound _ _ => true
  | named _ _ | indexed _ _ _ | coveredText => false

/-- The written form of the segment. -/
def display (s : Segment) : String :=
  match s.index? with
  | none => s.name
  | some i => s.name ++ "[" ++ toString i ++ "]"

end Segment

/-- A feature path with the type it starts from, if that is known. -/
structure FeaturePath where
  start? : Option TypeId
  segments : List Segment
  deriving DecidableEq

namespace FeaturePath

/-- Whether some segment is bound during the walk. -/
def hasUnbound (p : FeaturePath) : Bool := p.segments.any Segment.isUnbound

/-- The written form of the path. -/
def display (p : FeaturePath) : String := ".".intercalate (p.segments.map Segment.display)

end FeaturePath

end AnnotatedText
