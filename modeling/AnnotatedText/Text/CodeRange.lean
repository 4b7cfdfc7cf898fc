/-!
# Sets of code points

The character classes of this library are unions of intervals of code points. A set is written as
the list of its intervals, in increasing order and apart from each other, so that a search may stop
at the first interval that begins beyond the code point it looks for.
-/

namespace AnnotatedText.Text

/-- Closed intervals of code points, in increasing order. -/
abbrev CodeRanges := List (Nat × Nat)

/-- Whether an interval of the set holds the code point `n`. -/
def inRanges : CodeRanges → Nat → Bool
  | [], _ => false
  | (low, high) :: rest, n =>
    if n < low then false else if n ≤ high then true else inRanges rest n

end AnnotatedText.Text
