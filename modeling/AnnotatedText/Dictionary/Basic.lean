import AnnotatedText.Sentence
import AnnotatedText.Trie.Basic

/-!
# Dictionaries

A dictionary is a trie over the keys of several lists. Keys are looked up as they are written, or in
lower case if the dictionary makes no difference between the cases; its own keys are then in lower
case already.
-/

namespace AnnotatedText

/-- What a dictionary is built with. -/
structure DictionaryOptions where
  caseSensitive : Bool
  /-- Whether the dictionary is compressed when it is written. -/
  compress : Bool
  deriving DecidableEq

/-- The options that hold when none are given. -/
def DictionaryOptions.standard : DictionaryOptions := ⟨true, true⟩

/-- A dictionary. -/
structure Dictionary where
  caseSensitive : Bool
  lists : List SourceList
  trie : Trie
  /-- Whether it is compressed when it is written, or was when it was read. -/
  compress : Bool
  deriving DecidableEq

namespace Dictionary

/-- The dictionary with another choice of whether it is compressed when it is written. -/
def withCompression (d : Dictionary) (compress : Bool) : Dictionary := { d with compress := compress }

/-- The number of entries, those with one key in several lists counted once for each. -/
def entryCount (d : Dictionary) : Nat := d.trie.markerCount

/-- The markers at a key, in the order of the lists. -/
def lookup (d : Dictionary) (key : List String) : List Marker :=
  match d.trie.find? (key.map (foldCase d.caseSensitive)) with
  | some node => d.trie.markersAt node
  | none => []

/-- The columns of the lists. -/
def columns (d : Dictionary) : List (List Column) := d.lists.map SourceList.columns

@[simp] theorem length_columns (d : Dictionary) : d.columns.length = d.lists.length :=
  List.length_map ..

end Dictionary

end AnnotatedText
