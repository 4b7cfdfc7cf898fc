/-!
# Lines

A line ends behind a line feed or at the end of the text. The line feed does not belong to the
line, nor does a carriage return right before it. A text that ends with a line feed has no further
empty line behind it.
-/

namespace AnnotatedText.Text

/-- The lines of a text, each with the line feed that ends it. -/
def rawLines : List Char → List (List Char)
  | [] => []
  | c :: rest =>
    if c = '\n' then ['\n'] :: rawLines rest
    else match rawLines rest with
      | [] => [[c]]
      | line :: lines => (c :: line) :: lines

/-- The text without its last character, if that is `c`. -/
def dropSuffix (c : Char) (cs : List Char) : Option (List Char) :=
  if cs.getLast? = some c then some cs.dropLast else none

/-- A line without its ending. -/
def withoutEnding (line : List Char) : List Char :=
  match dropSuffix '\n' line with
  | none => line
  | some body => (dropSuffix '\r' body).getD body

/-- The lines of a text, without their endings. -/
def lines (cs : List Char) : List (List Char) := (rawLines cs).map withoutEnding

/-- Nothing is lost between the lines. -/
@[simp] theorem flatten_rawLines (cs : List Char) : (rawLines cs).flatten = cs := by
  induction cs with
  | nil => rfl
  | cons c rest ih =>
    simp only [rawLines]
    split
    · simp_all
    · split
      · rename_i h; simp_all
      · rename_i h; rw [h] at ih; simp_all

/-- The lines of two texts one after the other are the lines of each, if the first ends with a line
feed. -/
theorem rawLines_append (cs ds : List Char) :
    rawLines (cs ++ '\n' :: ds) = rawLines (cs ++ ['\n']) ++ rawLines ds := by
  induction cs with
  | nil => simp [rawLines]
  | cons c rest ih =>
    simp only [List.cons_append, rawLines]
    split
    · simp [ih]
    · have hne : rawLines (rest ++ ['\n']) ≠ [] := by
        intro h
        have := congrArg List.flatten h
        simp at this
      rw [ih]
      cases h : rawLines (rest ++ ['\n']) with
      | nil => exact absurd h hne
      | cons line lines => simp

end AnnotatedText.Text
