import AnnotatedText.Proofs.Trie.Insertion
import AnnotatedText.Proofs.Trie.Search

/-!
# Laying out keys

A tree of keys is laid out as an array of nodes in the order in which a walk comes upon them. The
layout loses nothing, `KeyTree.markers_toTrie`: the trie has the same markers at each key as the
tree. And it is what a reader of the trie expects, `KeyTree.wellFormed_toTrie`: children stand
behind their parents and edges increase because siblings do.

Both are inductions on the forest with the place `base` of its first node left free: the children of
a node take the places behind it, its siblings those behind its children.

## Main results

* `KeyTree.markers_toTrie`
* `KeyTree.wellFormed_toTrie`
-/

namespace AnnotatedText

namespace Forest

/-! ### Edges -/

/-- The edges to the topmost nodes have their tokens. -/
theorem tokens_edges (f : Forest) (base : Nat) : (f.edges base).map Edge.token = f.heads := by
  induction f generalizing base with
  | nil => rfl
  | node token markers children siblings _ ihs => simp [edges, heads, ihs]

/-- The edges to the topmost nodes of a sorted forest increase. -/
theorem Sorted.edges_sorted {f : Forest} (h : f.Sorted) (base : Nat) :
    (f.edges base).Pairwise fun a b => a.token < b.token := by
  induction f generalizing base with
  | nil => exact List.Pairwise.nil
  | node token markers children siblings _ ihs =>
      obtain ⟨hlt, -, hs⟩ := h
      refine List.pairwise_cons.mpr ⟨fun e he => ?_, ihs hs _⟩
      have hmem : e.token ∈ (siblings.edges (base + 1 + children.size)).map Edge.token :=
        List.mem_map_of_mem he
      rw [tokens_edges] at hmem
      exact hlt e.token hmem

/-- The topmost nodes stand among the places of the forest. -/
theorem child_bounds {f : Forest} {base : Nat} {e : Edge} (he : e ∈ f.edges base) :
    base ≤ e.child ∧ e.child < base + f.size := by
  induction f generalizing base with
  | nil => simp [edges] at he
  | node token markers children siblings _ ihs =>
      rw [size]
      rcases List.mem_cons.mp he with rfl | he
      · exact ⟨Nat.le_refl base, by simp only; omega⟩
      · have := ihs he
        omega

/-! ### Nodes -/

/-- The edges of every node increase in the layout of a sorted forest. -/
theorem Sorted.edges_sorted_of_mem_layout {f : Forest} (h : f.Sorted) {base : Nat} {n : Node}
    (hn : n ∈ f.layout base) : n.edges.Pairwise fun a b => a.token < b.token := by
  induction f generalizing base with
  | nil => simp [layout] at hn
  | node token markers children siblings ihc ihs =>
      obtain ⟨-, hc, hs⟩ := h
      rcases List.mem_cons.mp hn with rfl | hn
      · exact hc.edges_sorted (base + 1)
      · exact (List.mem_append.mp hn).elim (ihc hc) (ihs hs)

/-- What all markers of the forest have, all markers of the layout have. -/
theorem Every.of_mem_layout {p : List Marker → Prop} {f : Forest} (h : f.Every p) {base : Nat}
    {n : Node} (hn : n ∈ f.layout base) : p n.markers := by
  induction f generalizing base with
  | nil => simp [layout] at hn
  | node token markers children siblings ihc ihs =>
      obtain ⟨hmarkers, hc, hs⟩ := h
      rcases List.mem_cons.mp hn with rfl | hn
      · exact hmarkers
      · exact (List.mem_append.mp hn).elim (ihc hc) (ihs hs)

/-- The children of a node stand behind it, among the places of the forest. -/
theorem child_bounds_of_layout {f : Forest} {base i : Nat} {n : Node}
    (hn : (f.layout base)[i]? = some n) {e : Edge} (he : e ∈ n.edges) :
    base + i < e.child ∧ e.child < base + f.size := by
  induction f generalizing base i with
  | nil => simp [layout] at hn
  | node token markers children siblings ihc ihs =>
      rw [size]
      cases i with
      | zero =>
          obtain rfl : (⟨children.edges (base + 1), markers⟩ : Node) = n := by
            simpa [layout] using hn
          have := child_bounds he
          omega
      | succ i =>
          simp only [layout, List.getElem?_cons_succ] at hn
          by_cases hi : i < children.size
          · rw [List.getElem?_append_left (by simpa using hi)] at hn
            have := ihc hn
            omega
          · rw [List.getElem?_append_right (by simpa using hi), length_layout] at hn
            have := ihs hn
            omega

/-! ### Search in a layout -/

/-- The nodes of the layout of a forest stand in a trie from the place `base` on. -/
def StandsAt (f : Forest) (t : Trie) (base : Nat) : Prop :=
  ∀ i n, (f.layout base)[i]? = some n → t.nodes[base + i]? = some n

section StandsAt

variable {t : Trie} {token : String} {markers : List Marker} {children siblings : Forest}
  {base : Nat}

/-- The first node of a forest stands at its first place. -/
theorem StandsAt.firstNode (h : (node token markers children siblings).StandsAt t base) :
    t.nodes[base]? = some ⟨children.edges (base + 1), markers⟩ :=
  h 0 _ rfl

/-- The children of the first node stand behind it. -/
theorem StandsAt.behind (h : (node token markers children siblings).StandsAt t base) :
    children.StandsAt t (base + 1) := by
  intro i n hn
  have hlt : i < (children.layout (base + 1)).length := (List.getElem?_eq_some_iff.mp hn).1
  have := h (i + 1) n (by simp [layout, List.getElem?_append_left hlt, hn])
  rwa [show base + (i + 1) = base + 1 + i by omega] at this

/-- The siblings of the first node stand behind its children. -/
theorem StandsAt.beside (h : (node token markers children siblings).StandsAt t base) :
    siblings.StandsAt t (base + 1 + children.size) := by
  intro i n hn
  have hle : (children.layout (base + 1)).length ≤ children.size + i := by simp
  have := h (children.size + i + 1) n (by
    simp only [layout, List.getElem?_cons_succ, List.getElem?_append_right hle, length_layout]
    rwa [Nat.add_sub_cancel_left])
  rwa [show base + (children.size + i + 1) = base + 1 + children.size + i by omega] at this

end StandsAt

/-- Looking a key up along the edges to the topmost nodes finds what the forest holds. -/
theorem markersFrom_edges {t : Trie} {f : Forest} {base : Nat} (h : f.StandsAt t base)
    (token : String) (rest : List String) :
    (match (f.edges base).find? (·.token == token) with
      | some e => t.markersFrom e.child rest
      | none => []) = f.markersAt token rest := by
  induction f generalizing base token rest with
  | nil => rfl
  | node u markers children siblings ihc ihs =>
      by_cases hu : token = u
      · subst hu
        simp only [edges, List.find?_cons_of_pos, beq_self_eq_true]
        cases rest with
        | nil => simp [Trie.markersAt, h.firstNode]
        | cons next rest =>
            have hedges : t.edgesAt base = children.edges (base + 1) := by
              simp [Trie.edgesAt, h.firstNode]
            rw [Trie.markersFrom_cons, markersAt_self_cons, ← ihc h.behind, Trie.child?, hedges]
            cases (children.edges (base + 1)).find? (·.token == next) <;> rfl
      · rw [markersAt_of_ne hu, ← ihs h.beside, edges, List.find?_cons_of_neg]
        simpa using Ne.symm hu

end Forest

namespace KeyTree

variable {lists : List (List Column)}

/-- The trie has a node for the root and for each node of the forest. -/
theorem size_toTrie (t : KeyTree) : t.toTrie.size = 1 + t.forest.size := by
  simp [toTrie, Trie.size, Nat.add_comm]

/-- The root stands first, with edges to the topmost nodes. -/
theorem node_root_toTrie (t : KeyTree) :
    t.toTrie.nodes[0]? = some ⟨t.forest.edges 1, t.rootMarkers⟩ := by
  simp [toTrie]

/-- The forest stands behind the root. -/
theorem forest_standsAt_toTrie (t : KeyTree) : t.forest.StandsAt t.toTrie 1 := by
  intro i n hn
  rw [Nat.add_comm]
  simpa [toTrie] using hn

/-- **The trie of a tree of keys has the markers of the tree.** -/
theorem markers_toTrie (t : KeyTree) (key : List String) :
    t.toTrie.markers key = t.markersAt key := by
  cases key with
  | nil => simp [Trie.markers, Trie.markersAt, node_root_toTrie, markersAt]
  | cons token rest =>
      have hedges : t.toTrie.edgesAt 0 = t.forest.edges 1 := by
        simp [Trie.edgesAt, node_root_toTrie]
      rw [markersAt, ← Forest.markersFrom_edges t.forest_standsAt_toTrie, Trie.markers,
        Trie.markersFrom_cons, Trie.child?, hedges]
      cases (t.forest.edges 1).find? (·.token == token) <;> rfl

/-- A node of the trie is the root or stands in the layout of the forest. -/
theorem node_toTrie_cases {t : KeyTree} {place : Nat} {n : Node}
    (hn : t.toTrie.nodes[place]? = some n) :
    (place = 0 ∧ n = ⟨t.forest.edges 1, t.rootMarkers⟩) ∨
      ∃ i, place = i + 1 ∧ (t.forest.layout 1)[i]? = some n := by
  cases place with
  | zero => exact Or.inl ⟨rfl, (Option.some.inj (t.node_root_toTrie.symm.trans hn)).symm⟩
  | succ i => exact Or.inr ⟨i, rfl, by simpa [toTrie] using hn⟩

/-- The edges of every node increase where siblings do. -/
theorem edges_sorted_toTrie {t : KeyTree} (h : t.forest.Sorted) {place : Nat} {n : Node}
    (hn : t.toTrie.nodes[place]? = some n) : n.edges.Pairwise fun a b => a.token < b.token := by
  obtain ⟨-, rfl⟩ | ⟨i, -, hlayout⟩ := node_toTrie_cases hn
  · exact h.edges_sorted 1
  · exact h.edges_sorted_of_mem_layout (List.mem_of_getElem? hlayout)

/-- The children of every node stand behind it, inside the trie. -/
theorem child_bounds_toTrie {t : KeyTree} {place : Nat} {n : Node}
    (hn : t.toTrie.nodes[place]? = some n) {e : Edge} (he : e ∈ n.edges) :
    place < e.child ∧ e.child < t.toTrie.size := by
  rw [size_toTrie]
  obtain ⟨rfl, rfl⟩ | ⟨i, rfl, hlayout⟩ := node_toTrie_cases hn
  · have := Forest.child_bounds he
    omega
  · have := Forest.child_bounds_of_layout hlayout he
    omega

/-- What the markers of the root and of the forest have, the markers of every node have. -/
theorem markers_of_every {p : List Marker → Prop} {t : KeyTree} (hroot : p t.rootMarkers)
    (h : t.forest.Every p) {place : Nat} {n : Node} (hn : t.toTrie.nodes[place]? = some n) :
    p n.markers := by
  obtain ⟨-, rfl⟩ | ⟨i, -, hlayout⟩ := node_toTrie_cases hn
  · exact hroot
  · exact h.of_mem_layout (List.mem_of_getElem? hlayout)

/-- **The trie of an ordered tree of keys is well-formed.** -/
theorem Ordered.wellFormed_toTrie {t : KeyTree} (h : t.Ordered lists) :
    t.toTrie.WellFormed lists where
  has_root := by
    rw [size_toTrie]
    omega
  node_wellFormed _ _ hn :=
    ⟨edges_sorted_toTrie h.forest_sorted hn, fun _ he => child_bounds_toTrie hn he,
      markers_of_every h.root_fits h.forest_fits hn⟩

end KeyTree

end AnnotatedText
