import AnnotatedText.Scalar

/-!
# Lexicon lists

A list declares the type of the annotations that its entries give rise to, and the columns of their
attributes. An entry is a sequence of tokens, its key, with one attribute for each column. What
cannot become an entry is left out and leaves a diagnostic.
-/

namespace AnnotatedText

/-- The declaration of a list. -/
structure SourceList where
  name : String
  typeName : String
  columns : List Column
  deriving DecidableEq

/-- An entry of a list. -/
structure Entry where
  tokens : List String
  attributes : List Scalar
  deriving DecidableEq

/-- Why something is no entry. -/
inductive EntryFault where
  | fieldCount (expected found : Nat)
  | emptyKey
  /-- A literal that is no value of its column. -/
  | badLiteral (literal : String) (column : Column)
  | columnMismatch
  deriving DecidableEq

/-- The wording of the fault. -/
def EntryFault.message : EntryFault → String
  | fieldCount expected found => s!"expected {expected} fields, found {found}"
  | emptyKey => "the key has no tokens"
  | badLiteral literal column =>
    Text.quoted literal ++ " is not a valid " ++ column.kind.name ++ " for column " ++ column.name
  | columnMismatch => "the entry does not match the declared columns"

/-- A fault with the list it occurs in and its place there, counted from one. -/
structure Diagnostic where
  source : String
  line : Nat
  fault : EntryFault
  deriving DecidableEq

/-- The wording of the diagnostic. -/
def Diagnostic.message (d : Diagnostic) : String :=
  d.source ++ ":" ++ toString d.line ++ ": " ++ d.fault.message

end AnnotatedText
