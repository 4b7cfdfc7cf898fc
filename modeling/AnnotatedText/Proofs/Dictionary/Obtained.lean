import AnnotatedText.Proofs.Container.Reading
import AnnotatedText.Proofs.Dictionary.History
import AnnotatedText.Proofs.Trie.Search

/-!
# Obtained dictionaries

A dictionary is **obtained** by building it after a history of calls, or by reading it from bytes.
The two ways have nothing in common but the well-formedness of the trie: a built trie is a tree in
which every node is reached and leads to a marker, a read one may share nodes, hold some that
nothing reaches, or have markers at its root. What follows holds of both.

## Main results

* `Dictionary.Obtained.wellFormed`: the trie of an obtained dictionary is well-formed.
* `Dictionary.lookup_eq`: what is looked up is what the trie has at the folded key.
-/

namespace AnnotatedText

/-- The ways to obtain a dictionary. -/
inductive Dictionary.Obtained (k : Container.Codec) : Dictionary → Prop where
  | built (options : DictionaryOptions) (calls : List Call) :
      Obtained k (DictionaryBuilder.dictionary options calls)
  | read {bytes : Bytes} {d : Dictionary} (h : k.read bytes = .ok d) : Obtained k d

namespace Dictionary

variable {k : Container.Codec} {d : Dictionary}

/-- **The trie of an obtained dictionary is well-formed.** -/
theorem Obtained.wellFormed (hd : Obtained k d) : d.trie.WellFormed d.columns := by
  cases hd with
  | built options calls => exact DictionaryBuilder.wellFormed_dictionary options calls
  | read h => exact (Container.Codec.read_eq_ok_iff.mp h).trie_wellFormed

/-- What is looked up is what the trie has at the folded key. -/
theorem lookup_eq (d : Dictionary) (key : List String) :
    d.lookup key = d.trie.markers (key.map (foldCase d.caseSensitive)) :=
  rfl

/-- A look-up finds declared lists only. -/
theorem Obtained.lt_of_mem_lookup (hd : Obtained k d) {key : List String} {m : Marker}
    (hm : m ∈ d.lookup key) : m.list < d.lists.length := by
  rw [lookup_eq] at hm
  obtain ⟨node, -, hnode⟩ := Trie.exists_of_mem_markersFrom hm
  rw [← length_columns]
  exact hd.wellFormed.lt_of_mem_markersAt hnode

end Dictionary

end AnnotatedText
