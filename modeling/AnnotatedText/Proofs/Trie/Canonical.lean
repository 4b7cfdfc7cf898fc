import Mathlib.Data.List.Induction
import Mathlib.Data.List.Lex
import AnnotatedText.Proofs.Trie.Keys

/-!
# Canonical tries

A trie **enumerates** keys if its nodes stand for them in their order: the node of a key is found at
the place of the key, keys and edges increase, and each node but the root has one edge that leads to
it, from a node in front of it. Such a trie is determined by the keys and the markers at them,
`Trie.Enumerates.ext`: an edge leads from the place of a key to the place of a key that is longer by
the token of the edge, so the keys say which edges there are, and their order says the rest.

Trees of keys are laid out in this way. The keys and markers after a sequence of insertions do not
depend on the order in which the insertions at different keys or of different lists come, only on
which of those at one key and of one list is the last, `lastMarker`. So the trie does not depend on
it either.

## Main results

* `Trie.Enumerates.ext`: a trie that enumerates keys is determined by them and by its markers.
* `KeyTree.enumerates_toTrie`: the trie of a tree of keys enumerates the keys.
* `KeyTree.toTrie_gather_congr`: what the trie of a sequence of insertions depends on.
-/

namespace AnnotatedText

namespace Trie

/-- A trie **enumerates** keys: its nodes stand for them, in their order, and are linked as a tree. -/
structure Enumerates (t : Trie) (keys : List (List String)) : Prop where
  length_eq : keys.length = t.size
  /-- The tokens on the way from the root to a node are the key at its place. -/
  find?_eq_some_iff : ∀ key place, t.find? key = some place ↔ keys[place]? = some key
  keys_increasing : keys.Pairwise (List.Lex (· < ·))
  edges_increasing : ∀ place, (t.edgesAt place).Pairwise fun a b => a.token < b.token
  /-- Each node but the root is the child of one edge. -/
  children_perm :
    ((t.nodes.toList.flatMap Node.edges).map Edge.child).Perm (List.range' 1 (t.size - 1))
  children_behind : ∀ place, ∀ e ∈ t.edgesAt place, place < e.child

/-- The node of a key is found by going on from the node of its beginning. -/
theorem findFrom_append (t : Trie) (node : Nat) (key rest : List String) :
    t.findFrom node (key ++ rest) = (t.findFrom node key).bind (t.findFrom · rest) := by
  induction key generalizing node with
  | nil => rfl
  | cons token key ih =>
      rw [List.cons_append, findFrom_cons, findFrom_cons, Option.bind_assoc]
      congr 1
      funext next
      exact ih next

/-- Where edges increase, the child along a token is that of the edge with the token. -/
theorem child?_eq_some_iff {t : Trie} {place : Nat}
    (h : (t.edgesAt place).Pairwise fun a b => a.token < b.token) {e : Edge} :
    t.child? place e.token = some e.child ↔ e ∈ t.edgesAt place := by
  rw [child?, Option.map_eq_some_iff]
  constructor
  · rintro ⟨d, hd, hchild⟩
    have htoken : d.token = e.token := by simpa using List.find?_some hd
    obtain ⟨token, child⟩ := e
    obtain ⟨token', child'⟩ := d
    obtain rfl : token' = token := htoken
    obtain rfl : child' = child := hchild
    exact List.mem_of_find?_eq_some hd
  · intro he
    exact ⟨e, find?_of_mem_increasing Edge.token h he, rfl⟩

/-- Tries with the same edges and markers at the same places are equal. -/
theorem ext_of_at {t u : Trie} (hsize : t.size = u.size)
    (hedges : ∀ place < t.size, t.edgesAt place = u.edgesAt place)
    (hmarkers : ∀ place < t.size, t.markersAt place = u.markersAt place) : t = u := by
  obtain ⟨nodes⟩ := t
  obtain ⟨nodes'⟩ := u
  congr 1
  refine Array.ext hsize fun place hplace hplace' => ?_
  have he := hedges place hplace
  have hm := hmarkers place hplace
  simp only [edgesAt, markersAt, Array.getElem?_eq_getElem hplace,
    Array.getElem?_eq_getElem hplace'] at he hm
  cases hn : nodes[place]
  cases hn' : nodes'[place]
  simp_all

namespace Enumerates

variable {t u : Trie} {keys : List (List String)}

/-- **An edge leads to the key that is longer by its token.** -/
theorem mem_edgesAt_iff (h : t.Enumerates keys) {place : Nat} {key : List String}
    (hkey : keys[place]? = some key) {e : Edge} :
    e ∈ t.edgesAt place ↔ keys[e.child]? = some (key ++ [e.token]) := by
  rw [← child?_eq_some_iff (h.edges_increasing place), ← h.find?_eq_some_iff, find?,
    findFrom_append, ← find?, (h.find?_eq_some_iff key place).mpr hkey, Option.bind_some,
    findFrom_cons]
  simp

/-- **A trie that enumerates keys is determined by them** and by its markers. -/
theorem ext (ht : t.Enumerates keys) (hu : u.Enumerates keys)
    (hmarkers : ∀ place < t.size, t.markersAt place = u.markersAt place) : t = u := by
  refine ext_of_at (ht.length_eq.symm.trans hu.length_eq) (fun place hplace => ?_) hmarkers
  obtain ⟨key, hkey⟩ : ∃ key, keys[place]? = some key :=
    ⟨_, List.getElem?_eq_getElem (ht.length_eq ▸ hplace)⟩
  refine eq_of_increasing Edge.token (ht.edges_increasing place) (hu.edges_increasing place)
    fun e => ?_
  rw [ht.mem_edgesAt_iff hkey, hu.mem_edgesAt_iff hkey]

end Enumerates

end Trie

/-! ### Sequences of insertions -/

/-- A key with the marker that it is to get. -/
structure Insertion where
  key : List String
  marker : Marker
  deriving DecidableEq

/-- The last marker of a list that is inserted at a key. -/
def lastMarker (insertions : List Insertion) (key : List String) (list : Nat) : Option Marker :=
  ((insertions.filter fun x => x.key = key ∧ x.marker.list = list).getLast?).map Insertion.marker

/-- A further insertion has the last marker of its list at its key, and no other changes. -/
theorem lastMarker_append_singleton (insertions : List Insertion) (x : Insertion)
    (key : List String) (list : Nat) :
    lastMarker (insertions ++ [x]) key list =
      if x.key = key ∧ x.marker.list = list then some x.marker
      else lastMarker insertions key list := by
  by_cases h : x.key = key ∧ x.marker.list = list <;> simp [lastMarker, h]

/-- The last marker of a list at a key is inserted there. -/
theorem mem_of_lastMarker {insertions : List Insertion} {key : List String} {list : Nat}
    {m : Marker} (h : lastMarker insertions key list = some m) :
    ⟨key, m⟩ ∈ insertions ∧ m.list = list := by
  obtain ⟨x, hx, rfl⟩ := Option.map_eq_some_iff.mp h
  have hmem := List.mem_of_getLast? hx
  simp only [List.mem_filter, decide_eq_true_eq] at hmem
  obtain ⟨hmem, rfl, hlist⟩ := hmem
  exact ⟨hmem, hlist⟩

/-- Where a marker is inserted, its list has a last one. -/
theorem exists_lastMarker {insertions : List Insertion} {x : Insertion} (h : x ∈ insertions) :
    ∃ m, lastMarker insertions x.key x.marker.list = some m := by
  have hmem : x ∈ insertions.filter fun y => y.key = x.key ∧ y.marker.list = x.marker.list := by
    simp [h]
  exact ⟨_, congrArg (Option.map Insertion.marker)
    (List.getLast?_eq_some_getLast (List.ne_nil_of_mem hmem))⟩

namespace KeyTree

/-- The tree of keys after a sequence of insertions. -/
def gather (insertions : List Insertion) : KeyTree :=
  insertions.foldl (fun t x => t.insert x.key x.marker) .empty

/-- A further insertion is made in the tree of the others. -/
theorem gather_append_singleton (insertions : List Insertion) (x : Insertion) :
    gather (insertions ++ [x]) = (gather insertions).insert x.key x.marker := by
  simp [gather]

/-- Siblings increase after all insertions. -/
theorem sorted_gather (insertions : List Insertion) : (gather insertions).forest.Sorted := by
  induction insertions using List.reverseRecOn with
  | nil => trivial
  | append_singleton insertions x ih =>
      rw [gather_append_singleton]
      exact sorted_insert ih x.key x.marker

/-- **The keys after all insertions** are the empty one and the beginnings of those inserted. -/
theorem mem_keys_gather {insertions : List Insertion} {key : List String} :
    key ∈ (gather insertions).keys ↔ key = [] ∨ ∃ x ∈ insertions, key <+: x.key := by
  induction insertions using List.reverseRecOn with
  | nil => simp [gather, keys, empty, Forest.keys]
  | append_singleton insertions x ih =>
      rw [gather_append_singleton, mem_keys_insert, ih]
      simp only [List.mem_append, List.mem_singleton, or_and_right, exists_or, exists_eq_left]
      rw [or_comm, or_assoc]

/-- The markers at each key are in the order of their lists. -/
theorem markers_sorted_gather (insertions : List Insertion) (key : List String) :
    ((gather insertions).markersAt key).Pairwise fun a b => a.list < b.list := by
  induction insertions using List.reverseRecOn with
  | nil => cases key <;> exact List.Pairwise.nil
  | append_singleton insertions x ih =>
      rw [gather_append_singleton, markersAt_insert (sorted_gather insertions)]
      split
      · rename_i h
        exact pairwise_putMarker x.marker (h ▸ ih)
      · exact ih

/-- At each key a list has the attributes of its last marker there. -/
theorem attributesOf_gather (insertions : List Insertion) (key : List String) (list : Nat) :
    Trie.attributesOf ((gather insertions).markersAt key) list =
      (lastMarker insertions key list).map Marker.attributes := by
  induction insertions using List.reverseRecOn with
  | nil => cases key <;> rfl
  | append_singleton insertions x ih =>
      rw [gather_append_singleton, markersAt_insert (sorted_gather insertions),
        lastMarker_append_singleton]
      by_cases hk : key = x.key
      · subst hk
        by_cases hl : x.marker.list = list <;> simp [Trie.attributesOf_putMarker, hl, ih]
      · simp [hk, Ne.symm hk, ih]

/-- **The markers after all insertions** are the last of each list. -/
theorem mem_markersAt_gather {insertions : List Insertion} {key : List String} {m : Marker} :
    m ∈ (gather insertions).markersAt key ↔ lastMarker insertions key m.list = some m := by
  rw [← Trie.attributesOf_eq_some_iff (markers_sorted_gather insertions key), attributesOf_gather,
    Option.map_eq_some_iff]
  constructor
  · rintro ⟨last, hlast, hattributes⟩
    have hlist := (mem_of_lastMarker hlast).2
    obtain ⟨list, attributes⟩ := m
    obtain ⟨list', attributes'⟩ := last
    obtain rfl : list' = list := hlist
    obtain rfl : attributes' = attributes := hattributes
    exact hlast
  · intro h
    exact ⟨m, h, rfl⟩

/-- The last markers are all that the markers depend on. -/
theorem markersAt_gather_congr {insertions others : List Insertion}
    (h : ∀ key list, lastMarker others key list = lastMarker insertions key list)
    (key : List String) : (gather others).markersAt key = (gather insertions).markersAt key := by
  refine eq_of_increasing Marker.list (markers_sorted_gather others key)
    (markers_sorted_gather insertions key) fun m => ?_
  rw [mem_markersAt_gather, mem_markersAt_gather, h]

/-- The last markers are all that the keys depend on. -/
theorem keys_gather_congr {insertions others : List Insertion}
    (h : ∀ key list, lastMarker others key list = lastMarker insertions key list) :
    (gather others).keys = (gather insertions).keys := by
  have hmem {xs ys : List Insertion}
      (hxy : ∀ key list, lastMarker xs key list = lastMarker ys key list) {key : List String}
      (hkey : key ∈ (gather xs).keys) : key ∈ (gather ys).keys := by
    rw [mem_keys_gather] at hkey ⊢
    refine hkey.imp_right ?_
    rintro ⟨x, hx, hbegins⟩
    obtain ⟨m, hm⟩ := exists_lastMarker hx
    exact ⟨⟨x.key, m⟩, (mem_of_lastMarker (hxy x.key x.marker.list ▸ hm)).1, hbegins⟩
  exact (keys_increasing (sorted_gather others)).eq_of_mem_iff
    (keys_increasing (sorted_gather insertions))
    fun key => ⟨hmem h, hmem fun key list => (h key list).symm⟩

/-! ### Layout -/

/-- **The trie of a tree of keys enumerates the keys.** -/
theorem enumerates_toTrie {t : KeyTree} (h : t.forest.Sorted) : t.toTrie.Enumerates t.keys where
  length_eq := t.length_keys
  find?_eq_some_iff _ _ := find?_toTrie_eq_some_iff h
  keys_increasing := keys_increasing h
  edges_increasing place := by
    unfold Trie.edgesAt
    split
    · rename_i n hn
      exact edges_sorted_toTrie h hn
    · exact List.Pairwise.nil
  children_perm := t.perm_children_toTrie
  children_behind place e he := by
    unfold Trie.edgesAt at he
    split at he
    · rename_i n hn
      exact (child_bounds_toTrie hn he).1
    · simp at he

/-- **The last markers are all that the trie depends on.** -/
theorem toTrie_gather_congr {insertions others : List Insertion}
    (h : ∀ key list, lastMarker others key list = lastMarker insertions key list) :
    (gather others).toTrie = (gather insertions).toTrie := by
  have hsorted := sorted_gather insertions
  have hkeys := keys_gather_congr h
  have hothers : (gather others).toTrie.Enumerates (gather insertions).keys :=
    hkeys ▸ enumerates_toTrie (sorted_gather others)
  refine hothers.ext (enumerates_toTrie hsorted) fun place hplace => ?_
  obtain ⟨key, hkey⟩ : ∃ key, (gather insertions).keys[place]? = some key :=
    ⟨_, List.getElem?_eq_getElem (hothers.length_eq ▸ hplace)⟩
  rw [markersAt_toTrie hsorted hkey, markersAt_toTrie (sorted_gather others) (hkeys ▸ hkey),
    markersAt_gather_congr h]

end KeyTree

end AnnotatedText
