import AnnotatedText.Binary64.Decimal
import AnnotatedText.Binary64.Shortest
import AnnotatedText.Kind
import AnnotatedText.Text.Blank
import AnnotatedText.Text.Quoted

/-!
# Scalars

A scalar is a string, a whole number of 32 bits, a truth value or a double. `Scalar.read?` reads one
of a declared kind from a literal: a string is the literal itself, the others are read without the
blanks around them. `Scalar.display` writes a scalar as plain text, `Scalar.inspect` with its kind.
-/

namespace AnnotatedText

/-- A scalar value. -/
inductive Scalar where
  | string (s : String)
  | integer (i : Int32)
  | boolean (b : Bool)
  | double (d : Binary64)
  deriving DecidableEq

namespace Scalar

/-- The kind of the value. -/
def kind : Scalar → Kind
  | string _ => .string
  | integer _ => .integer
  | boolean _ => .boolean
  | double _ => .double

/-- Reads a truth value, in any case. -/
def readBoolean? (cs : List Char) : Option Bool :=
  let word := String.ofList (cs.map Char.toLower)
  if word = "true" then some true else if word = "false" then some false else none

/-- Reads a value of the given kind. -/
def read? (literal : String) : Kind → Option Scalar
  | .string => some (string literal)
  | .integer => (Text.readInteger 31 (Text.trim literal.toList)).map (integer <| Int32.ofInt ·)
  | .boolean => (readBoolean? (Text.trim literal.toList)).map boolean
  | .double => (Binary64.read (Text.trim literal.toList)).map double

/-- The decimal text of a whole number. -/
def integerText (i : Int32) : String := toString i.toInt

/-- The value as plain text. -/
def display : Scalar → String
  | string s => s
  | integer i => integerText i
  | boolean b => if b then "true" else "false"
  | double d => d.text .plain

/-- The value with its kind, as in a diagnostic. -/
def inspect : Scalar → String
  | string s => "String(" ++ Text.quoted s ++ ")"
  | integer i => "Integer(" ++ integerText i ++ ")"
  | boolean b => "Boolean(" ++ (if b then "true" else "false") ++ ")"
  | double d => "Double(" ++ d.text .precise ++ ")"

/-- A value that is read has the kind it was read for. -/
theorem kind_of_read? {literal : String} {k : Kind} {v : Scalar} (h : read? literal k = some v) :
    v.kind = k := by
  cases k <;> simp only [read?, Option.map_eq_some_iff, Option.some.injEq] at h
  · exact h ▸ rfl
  all_goals obtain ⟨_, _, rfl⟩ := h; rfl

end Scalar

/-- An attribute column: its name and the kind of its values. -/
structure Column where
  name : String
  kind : Kind
  deriving DecidableEq

/-- Whether the values fit the columns, one for each and of its kind. -/
def fitsColumns (values : List Scalar) (columns : List Column) : Bool :=
  values.map Scalar.kind == columns.map Column.kind

end AnnotatedText
