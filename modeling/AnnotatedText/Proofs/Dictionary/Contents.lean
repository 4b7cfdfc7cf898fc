import AnnotatedText.Proofs.Dictionary.Obtained
import AnnotatedText.Proofs.Trie.Keys

/-!
# The contents of dictionaries

A built dictionary is a map from keys to markers, one for each list that has an entry with the key.
`dictionary_contents` says so of every history: which markers are looked up, in which order, with
which attributes, and how many there are in all.

The markers are counted over the nodes of the trie. Each node stands for one key and has at most one
marker of each list, so the pairs of a list and a key that have a marker, `KeyTree.listedKeys`, are
counted with them, each once.

## Main results

* `KeyTree.markerCount_toTrie`, `KeyTree.nodup_listedKeys`, `KeyTree.mem_listedKeys`: markers are
  counted by list and key.
* `DictionaryBuilder.dictionary_contents`: what a dictionary is after a history of calls.
-/

namespace AnnotatedText

/-- The markers of a key are in the order of their lists. -/
theorem Trie.WellFormed.sorted_markers {lists : List (List Column)} {t : Trie}
    (h : t.WellFormed lists) (key : List String) :
    (t.markers key).Pairwise fun a b => a.list < b.list := by
  rw [Trie.markers, Trie.markersFrom]
  split
  · exact h.markers_sorted _
  · exact List.Pairwise.nil

namespace KeyTree

variable {lists : List (List Column)} {t : KeyTree}

/-! ### Counting markers -/

/-- The lists and keys that have a marker, in the order of the layout. -/
def listedKeys (t : KeyTree) : List (Nat × List String) :=
  t.keys.flatMap fun key => (t.markersAt key).map fun m => (m.list, key)

/-- The nodes of the trie have the markers of the keys that they stand for. -/
theorem markers_nodes_toTrie (h : t.forest.Sorted) :
    t.toTrie.nodes.toList.map Node.markers = t.keys.map t.markersAt := by
  refine List.ext_getElem (by simp [length_keys, Trie.size]) fun place hplace hplace' => ?_
  have hkey := List.getElem?_eq_getElem (l := t.keys) (i := place) (by simpa using hplace')
  have hmarkers := markersAt_toTrie h hkey
  simp only [List.length_map, Array.length_toList] at hplace
  simpa [Trie.markersAt, Array.getElem?_eq_getElem hplace] using hmarkers

/-- **Markers are counted by list and key.** -/
theorem markerCount_toTrie (h : t.forest.Sorted) :
    t.toTrie.markerCount = t.listedKeys.length := by
  rw [Trie.markerCount, List.flatMap_def, markers_nodes_toTrie h, listedKeys]
  simp [List.length_flatMap, List.length_flatten, Function.comp_def]

/-- No list has two markers at a key, and no key has two nodes. -/
theorem nodup_listedKeys (h : t.Ordered lists) : t.listedKeys.Nodup := by
  refine List.nodup_flatMap.mpr ⟨fun key _ => ?_, ?_⟩
  · have hsorted := h.wellFormed_toTrie.sorted_markers key
    rw [markers_toTrie] at hsorted
    refine List.pairwise_map.mpr (hsorted.imp fun hlt heq => ?_)
    exact absurd (congrArg Prod.fst heq) (Nat.ne_of_lt hlt)
  · refine (nodup_keys h.forest_sorted).imp fun hne x hx hx' => hne ?_
    obtain ⟨m, -, rfl⟩ := List.mem_map.mp hx
    obtain ⟨m', -, heq⟩ := List.mem_map.mp hx'
    exact (congrArg Prod.snd heq).symm

/-- A list is counted with a key if and only if it has a marker there. -/
theorem mem_listedKeys (h : t.forest.Sorted) {list : Nat} {key : List String} :
    (list, key) ∈ t.listedKeys ↔ ∃ m ∈ t.markersAt key, m.list = list := by
  rw [listedKeys, List.mem_flatMap]
  constructor
  · rintro ⟨other, -, hmem⟩
    obtain ⟨m, hm, heq⟩ := List.mem_map.mp hmem
    obtain ⟨rfl, rfl⟩ := Prod.mk.inj heq
    exact ⟨m, hm, rfl⟩
  · rintro ⟨m, hm, rfl⟩
    exact ⟨key, mem_keys_of_mem_markersAt h hm, List.mem_map_of_mem hm⟩

end KeyTree

/-! ### Entries -/

/-- A list has attributes at a key if and only if it has an entry with the key. -/
theorem exists_lastAttributes_iff {caseSensitive : Bool} {entries : List Entry}
    {key : List String} :
    (∃ attributes, lastAttributes caseSensitive entries key = some attributes) ↔
      ∃ e ∈ entries, e.key caseSensitive = key := by
  rw [← Option.isSome_iff_exists, lastAttributes, Option.isSome_map, List.getLast?_isSome, ne_eq,
    List.filter_eq_nil_iff]
  simp

namespace DictionaryBuilder

/-- The markers that are looked up are those of the lists that have an entry with the folded key,
with the attributes of the last such entry. -/
theorem mem_lookup_dictionary (options : DictionaryOptions) (calls : List Call)
    {key : List String} {m : Marker} :
    m ∈ (dictionary options calls).lookup key ↔
      ∃ c entries, (Call.accepted calls)[m.list]? = some c ∧ c.entries? = some entries ∧
        lastAttributes options.caseSensitive entries
          (key.map (foldCase options.caseSensitive)) = some m.attributes := by
  rw [Dictionary.lookup_eq, caseSensitive_dictionary, ← Trie.attributesOf_eq_some_iff
    ((wellFormed_dictionary options calls).sorted_markers _), attributesOf_markers_dictionary]
  simp only [Option.bind_eq_some_iff]
  constructor
  · rintro ⟨c, hc, entries, hentries, hlast⟩
    exact ⟨c, entries, hc, hentries, hlast⟩
  · rintro ⟨c, entries, hc, hentries, hlast⟩
    exact ⟨c, hc, entries, hentries, hlast⟩

/-- The empty key has no markers. -/
theorem lookup_nil_dictionary (options : DictionaryOptions) (calls : List Call) :
    (dictionary options calls).lookup [] = [] := by
  rw [Dictionary.lookup_eq]
  exact (KeyTree.markers_toTrie _ []).trans (holds_run options calls).root_empty

/-- **A dictionary is the map that its accepted entries describe.** It has the lists of the calls
that did not fail, which are the accepted ones as long as there are places for their lists. At a key
it has a marker of each list that has an entry with the folded key, with the attributes of the last
one, in the order of the lists; at the empty key it has none. In all it has as many as there are lists
and folded keys of entries. -/
theorem dictionary_contents (options : DictionaryOptions) (calls : List Call) :
    (∀ (b : DictionaryBuilder) (c : Call),
      (b.add c).error? = none ↔ c.isAccepted = true ∧ b.lists.length < placeLimit) ∧
    (dictionary options calls).lists = (Call.accepted calls).map Call.list ∧
    (∀ key, ((dictionary options calls).lookup key).Pairwise (fun a b => a.list < b.list) ∧
      ∀ m, m ∈ (dictionary options calls).lookup key ↔
        ∃ c entries, (Call.accepted calls)[m.list]? = some c ∧
          c.entries? = some entries ∧
          lastAttributes options.caseSensitive entries
            (key.map (foldCase options.caseSensitive)) = some m.attributes) ∧
    (dictionary options calls).lookup [] = [] ∧
    ∃ pairs : List (Nat × List String), pairs.Nodup ∧
      (∀ list key, (list, key) ∈ pairs ↔
        ∃ c entries e, (Call.accepted calls)[list]? = some c ∧
          c.entries? = some entries ∧ e ∈ entries ∧ e.key options.caseSensitive = key) ∧
      (dictionary options calls).entryCount = pairs.length := by
  refine ⟨Call.error?_add_eq_none_iff, lists_dictionary options calls,
    fun key => ⟨?_, fun m => ?_⟩, lookup_nil_dictionary options calls, ?_⟩
  · rw [Dictionary.lookup_eq]
    exact (wellFormed_dictionary options calls).sorted_markers _
  · exact mem_lookup_dictionary options calls
  · have hholds := holds_run options calls
    have hsorted := hholds.keys_ordered.forest_sorted
    refine ⟨_, KeyTree.nodup_listedKeys hholds.keys_ordered, fun list key => ?_,
      KeyTree.markerCount_toTrie hsorted⟩
    rw [KeyTree.mem_listedKeys hsorted, ← Trie.isSome_attributesOf_iff, hholds.attributes_eq,
      Option.isSome_iff_exists]
    simp only [Option.bind_eq_some_iff]
    constructor
    · rintro ⟨attributes, c, hc, entries, hentries, hlast⟩
      obtain ⟨e, he, hkey⟩ := exists_lastAttributes_iff.mp ⟨attributes, hlast⟩
      exact ⟨c, entries, e, hc, hentries, he, hkey⟩
    · rintro ⟨c, entries, e, hc, hentries, he, hkey⟩
      obtain ⟨attributes, hlast⟩ := exists_lastAttributes_iff.mpr ⟨e, he, hkey⟩
      exact ⟨attributes, c, hc, entries, hentries, hlast⟩

end DictionaryBuilder

end AnnotatedText
