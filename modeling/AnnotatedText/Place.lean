/-!
# Places

Types, features, annotations, lists and the nodes of a trie are known by their places, and a place
is told by a word of 32 bits. Where that many are, no further one gets a place.
-/

namespace AnnotatedText

/-- The number of places that can be told. -/
def placeLimit : Nat := UInt32.size

/-- The error that the places have run out. -/
inductive PlaceError where
  | noPlace
  deriving DecidableEq

/-- The wording of the error. -/
def PlaceError.message : PlaceError → String
  | noPlace => "out of range integral type conversion attempted"

end AnnotatedText
