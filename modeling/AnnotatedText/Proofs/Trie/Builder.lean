import Mathlib.Data.List.Induction
import AnnotatedText.Proofs.Trie.Arena
import AnnotatedText.Proofs.Trie.Canonical

/-!
# Tries built in an array

What a builder makes of its array is the layout of the tree of keys that the array holds.

* The walk comes upon the nodes in the order in which they are spelt, one in each round: its stack
  has the siblings that are still to come, in reverse, `TrieBuilder.Spells.walk_eq`.
* The table tells the place of each node in that order, `TrieBuilder.number_of_le`, so edges and
  nodes become those of the layout, `TrieBuilder.Spells.mapM_nodeAt`.
* No place comes twice, so no node is gone when it is moved out, `TrieBuilder.takeNodes_eq_mapM`.

What is known of the tries of trees of keys therefore holds of the tries that are built.

## Main results

* `TrieBuilder.Holds.insert`: an insertion in a builder is one in the tree it holds.
* `TrieBuilder.Holds.build_eq`: a builder builds the trie of the tree it holds.
* `TrieBuilder.build_gather`: the trie of a sequence of insertions, and what it depends on.
-/

namespace AnnotatedText

namespace TrieBuilder

variable {nodes nodes' : Array BuildNode}

/-! ### The walk -/

@[simp] theorem walk_nil (rounds : Nat) : walk nodes rounds [] = some [] := by
  cases rounds <;> rfl

/-- The walk takes the place on top of its stack and puts the children of its node there. -/
theorem walk_append_singleton {place : Nat} {node : BuildNode} (hnode : nodes[place]? = some node)
    (rounds : Nat) (stack : List Nat) :
    walk nodes (rounds + 1) (stack ++ [place]) =
      (walk nodes rounds (stack ++ (node.children.map Prod.snd).reverse)).map (place :: ·) := by
  rw [walk]
  simp [hnode]

/-- **A walk with children on top of its stack** comes upon the nodes of their forest in the order
of the layout, one in each round, and then goes on with what is below them. -/
theorem Spells.walk_eq {cs : List (String × Nat)} {f : Forest} {order : List Nat}
    (h : Spells nodes cs f order) (rounds : Nat) (stack : List Nat) :
    walk nodes (order.length + rounds) (stack ++ (cs.map Prod.snd).reverse) =
      (walk nodes rounds stack).map (order ++ ·) := by
  induction h generalizing rounds stack with
  | nil => simp
  | @cons token place inner rest markers children siblings order order' hnode _ _ ihc ihs =>
      calc walk nodes ((place :: (order ++ order')).length + rounds)
            (stack ++ (((token, place) :: rest).map Prod.snd).reverse)
        _ = walk nodes (order.length + (order'.length + rounds) + 1)
            ((stack ++ (rest.map Prod.snd).reverse) ++ [place]) := by
          congr 1
          · simp only [List.length_cons, List.length_append]
            omega
          · simp
        _ = (walk nodes rounds stack).map (place :: (order ++ order') ++ ·) := by
          rw [walk_append_singleton hnode, ihc, ihs]
          simp [Function.comp_def]

/-! ### New places -/

/-- The nodes at the places `order` have new places from `base` on. -/
def NumberedFrom (ids : Array Nat) (base : Nat) (order : List Nat) : Prop :=
  ∀ i p, order[i]? = some p → ids[p]? = some (base + i)

section NumberedFrom

variable {ids : Array Nat} {base place : Nat} {order order' : List Nat}

/-- The first node has the first of the new places. -/
theorem NumberedFrom.head (h : NumberedFrom ids base (place :: order)) : ids[place]? = some base :=
  h 0 place rfl

/-- The nodes behind the first have the new places from the next one on. -/
theorem NumberedFrom.tail (h : NumberedFrom ids base (place :: order)) :
    NumberedFrom ids (base + 1) order := by
  intro i p hp
  rw [Nat.add_assoc, Nat.add_comm 1]
  exact h (i + 1) p hp

/-- The nodes in front have the first new places. -/
theorem NumberedFrom.left (h : NumberedFrom ids base (order ++ order')) :
    NumberedFrom ids base order := fun i p hp =>
  h i p ((List.getElem?_append_left (List.getElem?_eq_some_iff.mp hp).1).trans hp)

/-- The nodes behind some others have the new places behind theirs. -/
theorem NumberedFrom.right (h : NumberedFrom ids base (order ++ order')) :
    NumberedFrom ids (base + order.length) order' := by
  intro i p hp
  rw [Nat.add_assoc]
  refine h (order.length + i) p ?_
  rwa [List.getElem?_append_right (Nat.le_add_right order.length i), Nat.add_sub_cancel_left]

end NumberedFrom

/-- **New places are taken down** where they do not run out. -/
theorem number_of_le {ids : Array Nat} {order : List Nat} (hnodup : order.Nodup)
    (hlt : ∀ p ∈ order, p < ids.size) {base : Nat} (hle : base + order.length ≤ placeLimit) :
    ∃ ids', number base ids order = some (.ok ids') ∧ NumberedFrom ids' base order ∧
      ∀ p ∉ order, ids'[p]? = ids[p]? := by
  induction order generalizing ids base with
  | nil => exact ⟨ids, rfl, by simp [NumberedFrom], fun _ _ => rfl⟩
  | cons place rest ih =>
      obtain ⟨hplace, hrest⟩ := List.nodup_cons.mp hnodup
      rw [List.forall_mem_cons] at hlt
      rw [List.length_cons] at hle
      obtain ⟨ids', hnumber, hfrom, hother⟩ :=
        ih hrest (ids.size_setIfInBounds.symm ▸ hlt.2)
          (show base + 1 + rest.length ≤ placeLimit by omega)
      refine ⟨ids', ?_, fun i p hp => ?_, fun p hp => ?_⟩
      · rw [number, if_neg (by omega), if_pos hlt.1, hnumber]
      · cases i with
        | zero =>
            obtain rfl : place = p := by simpa using hp
            rw [hother place hplace]
            simp [hlt.1]
        | succ i =>
            rw [hfrom i p hp]
            congr 1
            omega
      · rw [List.mem_cons, not_or] at hp
        rw [hother p hp.2]
        simp [Ne.symm hp.1]

/-- Where new places run out, there is no table. -/
theorem number_of_gt {ids : Array Nat} {order : List Nat} (hlt : ∀ p ∈ order, p < ids.size)
    {base : Nat} (hbase : base ≤ placeLimit) (hgt : placeLimit < base + order.length) :
    number base ids order = some (.error .noPlace) := by
  induction order generalizing ids base with
  | nil => exact absurd hgt (by simpa using hbase)
  | cons place rest ih =>
      rw [List.forall_mem_cons] at hlt
      rw [List.length_cons] at hgt
      rw [number]
      split
      · rfl
      · rw [if_pos hlt.1]
        exact ih (by simpa using hlt.2) (by omega) (by omega)

/-! ### Nodes in the new order -/

/-- **The edges to children** in the new order are those of the layout. -/
theorem Spells.edgesTo_eq {ids : Array Nat} {cs : List (String × Nat)} {f : Forest}
    {order : List Nat} (h : Spells nodes cs f order) {base : Nat}
    (hids : NumberedFrom ids base order) : edgesTo ids cs = some (f.edges base) := by
  induction h generalizing base with
  | nil => rfl
  | cons hnode hchildren _ _ ihs =>
      have hsiblings := hids.tail.right
      rw [hchildren.length_eq] at hsiblings
      rw [edgesTo, hids.head]
      simp [ihs hsiblings, Forest.edges]

/-- **The nodes of a forest** in the new order are those of the layout. -/
theorem Spells.mapM_nodeAt {ids : Array Nat} {cs : List (String × Nat)} {f : Forest}
    {order : List Nat} (h : Spells nodes cs f order) {base : Nat}
    (hids : NumberedFrom ids base order) :
    order.mapM (nodeAt ids nodes) = some (f.layout base) := by
  induction h generalizing base with
  | nil => rfl
  | @cons token place inner rest markers children siblings order order' hnode hchildren _ ihc ihs =>
      have hbehind := hids.tail.left
      have hbeside := hids.tail.right
      rw [hchildren.length_eq] at hbeside
      have hplace : nodeAt ids nodes place = some ⟨children.edges (base + 1), markers⟩ := by
        simp [nodeAt, hnode, hchildren.edgesTo_eq hbehind]
      simp [hplace, ihc hbehind, ihs hbeside, Forest.layout]

/-- **Moving the nodes out one after the other** yields them as they were, where no place comes
twice. -/
theorem takeNodes_eq_mapM {ids : Array Nat} {order : List Nat} (hnodup : order.Nodup)
    (hsame : ∀ p ∈ order, nodes'[p]? = nodes[p]?) :
    takeNodes ids nodes' order = order.mapM (nodeAt ids nodes) := by
  induction order generalizing nodes' with
  | nil => rfl
  | cons place rest ih =>
      obtain ⟨hplace, hrest⟩ := List.nodup_cons.mp hnodup
      rw [List.forall_mem_cons] at hsame
      have htail : takeNodes ids (nodes'.setIfInBounds place .empty) rest =
          rest.mapM (nodeAt ids nodes) := by
        refine ih hrest fun p hp => ?_
        have hne : place ≠ p := fun he => hplace (he ▸ hp)
        simp [hne, hsame.2 p hp]
      rw [takeNodes, nodeAt, hsame.1, ← nodeAt, htail, List.mapM_cons]
      cases nodeAt ids nodes place <;> cases rest.mapM (nodeAt ids nodes) <;> rfl

/-! ### The trie -/

/-- A builder holds a tree of keys, each of whose nodes has a place of its own. -/
def Holds (b : TrieBuilder) (t : KeyTree) : Prop :=
  ∃ order, HoldsAt b.nodes 0 t order ∧ (0 :: order).Nodup

variable {b : TrieBuilder} {t : KeyTree}

/-- A builder with nothing but the root holds the tree without keys. -/
theorem holds_empty : empty.Holds .empty := ⟨[], ⟨[], rfl, .nil⟩, by simp⟩

/-- **An insertion in a builder is one in the tree it holds**; no access fails. -/
theorem Holds.insert (h : b.Holds t) (hs : t.forest.Sorted) (key : List String) (m : Marker) :
    ∃ b', b.insert key m = some (t.holds key m.list, b') ∧ b'.Holds (t.insert key m) := by
  obtain ⟨order, hholds, hnodup⟩ := h
  obtain ⟨nodes', order', hinsert, hholds', hgrows⟩ := hholds.insertFrom hnodup hs m key
  exact ⟨⟨nodes'⟩, by rw [TrieBuilder.insert, hinsert], order', hholds', hgrows.nodup⟩

/-- **A builder builds the trie of the tree it holds**: the walk ends, no access fails, and the only
error is that there are not enough places. -/
theorem Holds.build_eq (h : b.Holds t) :
    b.build =
      some (if t.toTrie.size ≤ placeLimit then .ok t.toTrie else .error .noPlace) := by
  obtain ⟨order, hholds, hnodup⟩ := h
  have hlt := hholds.lt_size
  have hspells := hholds.spells ""
  have hsize : (0 :: order).length = t.toTrie.size := by
    rw [hspells.length_eq, KeyTree.size_toTrie, Forest.size, Forest.size, Nat.add_zero]
  have hwalk : walk b.nodes b.nodes.size [0] = some (0 :: order) := by
    have hrounds : (0 :: order).length ≤ b.nodes.size := by
      have hsub : (0 :: order) ⊆ List.range b.nodes.size := fun p hp =>
        List.mem_range.mpr (hlt p hp)
      simpa using (List.subperm_of_subset hnodup hsub).length_le
    have := hspells.walk_eq (b.nodes.size - (0 :: order).length) []
    rw [Nat.add_sub_cancel' hrounds] at this
    simpa using this
  have hids : ∀ p ∈ 0 :: order, p < (Array.replicate b.nodes.size 0).size := by simpa using hlt
  by_cases hle : t.toTrie.size ≤ placeLimit
  · obtain ⟨ids, hnumber, hfrom, -⟩ :=
      number_of_le hnodup hids (show 0 + (0 :: order).length ≤ placeLimit by omega)
    have htake : takeNodes ids b.nodes (0 :: order) = some t.toTrie.nodes.toList := by
      rw [takeNodes_eq_mapM hnodup fun _ _ => rfl, hspells.mapM_nodeAt hfrom]
      simp [Forest.layout, KeyTree.toTrie]
    simp [build, hwalk, hnumber, htake, hle]
  · have hnumber := number_of_gt hids (Nat.zero_le placeLimit) (by omega)
    simp [build, hwalk, hnumber, hle]

/-! ### Sequences of insertions -/

/-- The builder after a sequence of insertions. -/
def gather (insertions : List Insertion) : Option TrieBuilder :=
  insertions.foldlM (fun b x => (b.insert x.key x.marker).map Prod.snd) empty

/-- **All insertions succeed**, and the builder holds the tree of keys after them. -/
theorem exists_gather (insertions : List Insertion) :
    ∃ b, gather insertions = some b ∧ b.Holds (KeyTree.gather insertions) := by
  induction insertions using List.reverseRecOn with
  | nil => exact ⟨empty, rfl, holds_empty⟩
  | append_singleton insertions x ih =>
      obtain ⟨b, hb, hholds⟩ := ih
      obtain ⟨b', hinsert, hholds'⟩ :=
        hholds.insert (KeyTree.sorted_gather insertions) x.key x.marker
      refine ⟨b', ?_, KeyTree.gather_append_singleton insertions x ▸ hholds'⟩
      rw [gather] at hb ⊢
      simp [List.foldlM_append, hb, hinsert]

/-- **The trie of a sequence of insertions is canonical.** All insertions succeed. Building fails if
the empty key and the beginnings of the inserted ones are more than there are places, and only then.
Else the nodes of the trie stand for these keys, in their order, and are linked as a tree, and they
have the last marker of each list, in the order of the lists. What is built depends on nothing but
which markers are the last. -/
theorem build_gather (insertions : List Insertion) :
    ∃ b keys, gather insertions = some b ∧ keys.Pairwise (List.Lex (· < ·)) ∧
      (∀ key, key ∈ keys ↔ key = [] ∨ ∃ x ∈ insertions, key <+: x.key) ∧
      (placeLimit < keys.length → b.build = some (.error .noPlace)) ∧
      (keys.length ≤ placeLimit → ∃ trie, b.build = some (.ok trie) ∧ trie.Enumerates keys ∧
        ∀ place key, keys[place]? = some key →
          (trie.markersAt place).Pairwise (fun a b => a.list < b.list) ∧
            ∀ m, m ∈ trie.markersAt place ↔ lastMarker insertions key m.list = some m) ∧
      ∀ others, (∀ key list, lastMarker others key list = lastMarker insertions key list) →
        ∃ b', gather others = some b' ∧ b'.build = b.build := by
  obtain ⟨b, hb, hholds⟩ := exists_gather insertions
  have hsorted := KeyTree.sorted_gather insertions
  have hlength := (KeyTree.gather insertions).length_keys
  refine ⟨b, (KeyTree.gather insertions).keys, hb, KeyTree.keys_increasing hsorted,
    fun key => KeyTree.mem_keys_gather, fun hgt => ?_, fun hle => ?_, fun others hlast => ?_⟩
  · rw [hholds.build_eq, if_neg (by omega)]
  · refine ⟨(KeyTree.gather insertions).toTrie, by rw [hholds.build_eq, if_pos (by omega)],
      KeyTree.enumerates_toTrie hsorted, fun place key hkey => ?_⟩
    rw [KeyTree.markersAt_toTrie hsorted hkey]
    exact ⟨KeyTree.markers_sorted_gather insertions key, fun m => KeyTree.mem_markersAt_gather⟩
  · obtain ⟨b', hb', hholds'⟩ := exists_gather others
    exact ⟨b', hb', by rw [hholds'.build_eq, hholds.build_eq, KeyTree.toTrie_gather_congr hlast]⟩

end TrieBuilder

namespace Sample

/-- Insertions at keys of which one begins another. -/
def insertions : List Insertion := [⟨["b"], ⟨0, []⟩⟩, ⟨["a", "c"], ⟨0, []⟩⟩, ⟨["a"], ⟨1, []⟩⟩]

/-- The same in another order, with a marker at `b` that is replaced. -/
def replacing : List Insertion :=
  [⟨["a"], ⟨1, []⟩⟩, ⟨["b"], ⟨0, [.boolean true]⟩⟩, ⟨["a", "c"], ⟨0, []⟩⟩, ⟨["b"], ⟨0, []⟩⟩]

/-- Both sequences have the same last markers. -/
theorem lastMarker_replacing (key : List String) (list : Nat) :
    lastMarker replacing key list = lastMarker insertions key list := by
  by_cases hb : ["b"] = key ∧ 0 = list
  · obtain ⟨rfl, rfl⟩ := hb
    rfl
  · by_cases ha : ["a"] = key ∧ 1 = list
    · obtain ⟨rfl, rfl⟩ := ha
      rfl
    · simp [lastMarker, insertions, replacing, List.filter_cons, hb, ha]

end Sample

/-- Two orders of insertion, one of which replaces a marker on the way, build one trie: the root and
the nodes of `a`, `a c` and `b`. -/
theorem TrieBuilder.build_gather_replacing :
    ∃ b b' trie, gather Sample.insertions = some b ∧ gather Sample.replacing = some b' ∧
      b.build = some (.ok trie) ∧ b'.build = some (.ok trie) ∧
      trie.Enumerates [[], ["a"], ["a", "c"], ["b"]] := by
  obtain ⟨b, keys, hb, hincreasing, hmem, -, hbuild, hothers⟩ := build_gather Sample.insertions
  have hkeys : keys = (KeyTree.gather Sample.insertions).keys :=
    hincreasing.eq_of_mem_iff (KeyTree.keys_increasing (KeyTree.sorted_gather _)) fun key =>
      (hmem key).trans KeyTree.mem_keys_gather.symm
  obtain rfl : keys = [[], ["a"], ["a", "c"], ["b"]] := hkeys.trans (by decide)
  obtain ⟨trie, htrie, henumerates, -⟩ := hbuild (by decide)
  obtain ⟨b', hb', heq⟩ := hothers Sample.replacing Sample.lastMarker_replacing
  exact ⟨b, b', trie, hb, hb', htrie, heq.trans htrie, henumerates⟩

end AnnotatedText
