import AnnotatedText.Text.Split

/-!
# Kinds of scalars

The four kinds of scalar values, with the names by which a declaration refers to them. A name may
be qualified: only the part behind its last point counts, and its case does not matter.
-/

namespace AnnotatedText

/-- A kind of scalar values. -/
inductive Kind where
  | string
  | integer
  | boolean
  | double
  deriving DecidableEq

namespace Kind

/-- The name of the kind. -/
def name : Kind → String
  | string => "String"
  | integer => "Integer"
  | boolean => "Boolean"
  | double => "Double"

/-- The part of a name behind its last point. -/
def baseName (name : String) : List Char :=
  match Text.splitLast '.' name.toList with
  | none => name.toList
  | some (_, base) => base

/-- The kind of the given name. -/
def ofName? (name : String) : Option Kind :=
  let base := String.ofList ((baseName name).map Char.toLower)
  if base = "string" then some string
  else if base = "integer" ∨ base = "int" then some integer
  else if base = "boolean" ∨ base = "bool" then some boolean
  else if base = "double" then some double
  else none

end Kind

end AnnotatedText
