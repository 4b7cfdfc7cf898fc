import AnnotatedText.Dictionary.Loading
import AnnotatedText.Matching.Annotating
import AnnotatedText.Walk

/-!
# Errors

All errors of the library as one type, with the wording of each.
-/

namespace AnnotatedText

/-- The wording of an error, which tells the argument at fault if there is one. -/
def argumentMessage (argument? : Option String) (reason : String) : String :=
  match argument? with
  | some argument => "InvalidArgumentError: " ++ argument ++ ": " ++ reason
  | none => reason

/-- The wording of the error. -/
def DeclarationError.message (e : DeclarationError) : String := argumentMessage e.argument? e.reason

/-- The wording of the error. -/
def AnnotationError.message (e : AnnotationError) : String := argumentMessage e.argument? e.reason

/-- The wording of the error. -/
def ResolutionError.message (e : ResolutionError) : String :=
  match e.typeName? with
  | some type =>
    "FeatureResolutionError: " ++ e.segment ++ " of type " ++ type ++ ": " ++ e.fault.message
  | none => "FeatureResolutionError: " ++ e.segment ++ ": " ++ e.fault.message

/-- An error of any operation. -/
inductive Error where
  | declaration (e : DeclarationError)
  | document (e : AnnotationError)
  | resolution (e : ResolutionError)
  | walk (e : WalkError)
  | list (e : ListError)
  | load (e : LoadError)
  | file (e : FileFault)
  | place (e : PlaceError)
  /-- The document to annotate is not the one that was scanned. -/
  | otherText
  deriving DecidableEq

namespace Error

/-- The error of an annotating. -/
def ofAnnotating : AnnotatingError → Error
  | .otherText => otherText
  | .unresolved e => resolution e
  | .refused e => document e

/-- The wording of the error. -/
def message : Error → String
  | declaration e => e.message
  | document e => e.message
  | resolution e => e.message
  | walk e => e.message
  | list e => e.message
  | load e => e.message
  | file e => e.message
  | place e => e.message
  | otherText => argumentMessage (some "cas") "the document text differs from the scanned document"

end Error

end AnnotatedText
