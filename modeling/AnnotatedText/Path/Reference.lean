import AnnotatedText.Text.Blank
import AnnotatedText.Text.Number
import AnnotatedText.Text.Split
import AnnotatedText.TypeSystem

/-!
# References in a feature path

A feature path is written as segments between points, and each segment as the name of a feature with
or without an index in brackets behind it. Blanks around segments, names and indices do not count.
-/

namespace AnnotatedText

/-- Why a segment of a feature path cannot be resolved. -/
inductive ResolutionFault where
  | unbalancedIndex
  | invalidIndex (fault : Text.NumberError)
  | emptyName
  | emptySegment
  | textHasNoFeatures
  | textIndexed
  | inaccessibleFeature
  /-- The type that the entries of a list are to have is not declared. -/
  | undefinedListType (list : String)
  | undefinedFeature
  /-- The values of a column are not in the range of its feature. -/
  | rangeRefuses (kind : Kind)
  deriving DecidableEq

/-- The wording of the fault. -/
def ResolutionFault.message : ResolutionFault → String
  | unbalancedIndex => "unbalanced index"
  | invalidIndex fault => "invalid index: " ++ fault.message
  | emptyName => "empty feature name"
  | emptySegment => "empty segment in feature path"
  | textHasNoFeatures => "covered text has no features"
  | textIndexed => "covered text cannot be indexed"
  | inaccessibleFeature => "not able to access feature"
  | undefinedListType list => "the type of list " ++ list ++ " is not defined"
  | undefinedFeature => "the feature is not defined"
  | rangeRefuses kind => "the feature range does not accept " ++ kind.name

/-- A segment that cannot be resolved, with the type it was looked up on. -/
structure ResolutionError where
  segment : String
  typeName? : Option String
  fault : ResolutionFault
  deriving DecidableEq

/-- The name of a feature, with an index or without one. -/
structure Reference where
  name : String
  index? : Option Nat
  deriving DecidableEq

namespace Reference

/-- Reads the inside of the brackets and the name in front of them. -/
def readIndexed (before inner : List Char) : Except ResolutionFault Reference :=
  match Text.readNatural Text.wordLimit (Text.trim inner) with
  | .error fault => .error (.invalidIndex fault)
  | .ok index =>
    let name := Text.trimEnd before
    if name = [] then .error .emptyName else .ok ⟨String.ofList name, some index⟩

/-- Reads a segment without blanks around it: the first opening bracket begins the index, and a
closing bracket at the very end ends it. -/
def readTrimmed (cs : List Char) : Except ResolutionFault Reference :=
  match Text.splitFirst '[' cs with
  | none => if ']' ∈ cs then .error .unbalancedIndex else .ok ⟨String.ofList cs, none⟩
  | some (before, behind) =>
    if behind.getLast? = some ']' then readIndexed before behind.dropLast
    else .error .unbalancedIndex

/-- Reads a segment. -/
def read (raw : String) : Except ResolutionError Reference :=
  let cs := Text.trim raw.toList
  (readTrimmed cs).mapError fun fault => ⟨String.ofList cs, none, fault⟩

end Reference

/-- The segments of a path, of which none may be empty. -/
def splitPath (path : String) : Except ResolutionError (List String) :=
  let segments := (Text.splitAll '.' path.toList).map Text.trim
  if segments.any List.isEmpty then .error ⟨path, none, .emptySegment⟩
  else .ok (segments.map String.ofList)

end AnnotatedText
