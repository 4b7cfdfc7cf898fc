import Mathlib.Data.List.Nodup
import AnnotatedText.Proofs.Trie.Layout

/-!
# The keys of nodes

Each node of a tree of keys stands for a key, the tokens on the way to it. `KeyTree.keys` lists
these keys in the order of the layout: a key comes before the keys that go on from it, and these
before the keys that branch off behind it. So keys increase where siblings do, and none comes twice.

In the layout the node of a key is found at the place of the key in the list, and each place but the
root's is the child of one edge.

## Main results

* `KeyTree.find?_toTrie`: where the node of a key is found.
* `KeyTree.keys_increasing`: keys increase in the order of the layout.
* `KeyTree.mem_keys_insert`: the keys after an insertion.
* `KeyTree.perm_children_toTrie`: each place but the root's is the child of one edge.
-/

namespace AnnotatedText

namespace Forest

/-- The keys of the nodes, in the order of the layout. -/
def keys : Forest → List (List String)
  | nil => []
  | node token _ children siblings =>
    [token] :: (children.keys.map (token :: ·) ++ siblings.keys)

/-- Each node has a key. -/
@[simp] theorem length_keys (f : Forest) : f.keys.length = f.size := by
  induction f with
  | nil => rfl
  | node token markers children siblings ihc ihs => simp [keys, size, ihc, ihs]; omega

/-- A key of a node begins with the token of a topmost node. -/
theorem exists_of_mem_keys {f : Forest} {key : List String} (h : key ∈ f.keys) :
    ∃ token rest, key = token :: rest ∧ token ∈ f.heads := by
  induction f generalizing key with
  | nil => simp [keys] at h
  | node u markers children siblings _ ihs =>
      rw [keys, List.mem_cons, List.mem_append, List.mem_map] at h
      rcases h with rfl | ⟨rest, -, rfl⟩ | h
      · exact ⟨u, [], rfl, List.mem_cons_self⟩
      · exact ⟨u, rest, rfl, List.mem_cons_self⟩
      · obtain ⟨token, rest, rfl, hhead⟩ := ihs h
        exact ⟨token, rest, rfl, List.mem_cons_of_mem u hhead⟩

/-- Keys increase in the order of the layout, as siblings do. -/
theorem Sorted.keys_increasing {f : Forest} (h : f.Sorted) :
    f.keys.Pairwise (List.Lex (· < ·)) := by
  induction f with
  | nil => exact List.Pairwise.nil
  | node u markers children siblings ihc ihs =>
      obtain ⟨hu, hc, hs⟩ := h
      have hbehind {key : List String} (hkey : key ∈ siblings.keys) (rest : List String) :
          List.Lex (· < ·) (u :: rest) key := by
        obtain ⟨token, rest', rfl, hhead⟩ := exists_of_mem_keys hkey
        exact .rel (hu token hhead)
      rw [keys, List.pairwise_cons, List.pairwise_append, List.pairwise_map]
      refine ⟨fun key hkey => ?_, (ihc hc).imp .cons, ihs hs, fun key hkey other hother => ?_⟩
      · rcases List.mem_append.mp hkey with hkey | hkey
        · obtain ⟨rest, hrest, rfl⟩ := List.mem_map.mp hkey
          obtain ⟨token, rest', rfl, -⟩ := exists_of_mem_keys hrest
          exact .cons .nil
        · exact hbehind hkey []
      · obtain ⟨rest, -, rfl⟩ := List.mem_map.mp hkey
        exact hbehind hother rest

/-! ### Places -/

section Places

variable {u token : String} {markers : List Marker} {children siblings : Forest}

/-- The key of the first node comes first. -/
theorem idxOf?_keys_self :
    (node u markers children siblings).keys.idxOf? [u] = some 0 := by
  simp [keys, List.idxOf?_cons]

/-- Behind a topmost node its children are searched, and nothing else. -/
theorem idxOf?_keys_behind (h : u ∉ siblings.heads) (next : String) (rest : List String) :
    (node u markers children siblings).keys.idxOf? (u :: next :: rest) =
      (children.keys.idxOf? (next :: rest)).map (1 + ·) := by
  have hbeside : siblings.keys.findIdx? (· == u :: next :: rest) = none := by
    refine List.idxOf?_eq_none_iff.mpr fun hmem => ?_
    obtain ⟨token, rest', hkey, hhead⟩ := exists_of_mem_keys hmem
    cases hkey
    exact h hhead
  have hpred : ((· == u :: next :: rest) ∘ (u :: ·) : List String → Bool) = (· == next :: rest) := by
    funext key
    simp
  rw [keys, List.idxOf?_cons, if_neg (by simp), List.idxOf?, List.findIdx?_append,
    List.findIdx?_map, hpred, hbeside]
  simp [List.idxOf?, Nat.add_comm]

/-- A key with another first token is searched among the siblings. -/
theorem idxOf?_keys_beside (h : token ≠ u) (rest : List String) :
    (node u markers children siblings).keys.idxOf? (token :: rest) =
      (siblings.keys.idxOf? (token :: rest)).map (1 + children.size + ·) := by
  have hbehind : (children.keys.map (u :: ·)).findIdx? (· == token :: rest) = none := by
    refine List.idxOf?_eq_none_iff.mpr fun hmem => ?_
    obtain ⟨key, -, hkey⟩ := List.mem_map.mp hmem
    cases hkey
    exact h rfl
  rw [keys, List.idxOf?_cons, if_neg (by simp [Ne.symm h]), List.idxOf?, List.findIdx?_append,
    hbehind, Option.none_or, Option.map_map, List.length_map, length_keys]
  congr 1
  funext i
  simp only [Function.comp_apply]
  omega

end Places

/-- Looking a key up along the edges to the topmost nodes finds the place of the key in the list. -/
theorem find?_edges {t : Trie} {f : Forest} {base : Nat} (h : f.StandsAt t base) (hs : f.Sorted)
    (token : String) (rest : List String) :
    (((f.edges base).find? (·.token == token)).bind fun e => t.findFrom e.child rest) =
      (f.keys.idxOf? (token :: rest)).map (base + ·) := by
  induction f generalizing base token rest with
  | nil => rfl
  | node u markers children siblings ihc ihs =>
      obtain ⟨hu, hsc, hss⟩ := hs
      by_cases ht : token = u
      · subst ht
        have hhead : token ∉ siblings.heads := fun hm => String.lt_irrefl token (hu token hm)
        rw [edges, List.find?_cons_of_pos (by simp), Option.bind_some]
        cases rest with
        | nil => simp [idxOf?_keys_self]
        | cons next rest =>
            have hedges : t.edgesAt base = children.edges (base + 1) := by
              simp [Trie.edgesAt, h.firstNode]
            rw [idxOf?_keys_behind hhead, Trie.findFrom_cons, Trie.child?, hedges,
              Option.bind_map, Option.map_map]
            refine (ihc h.behind hsc next rest).trans ?_
            congr 1
            funext i
            exact Nat.add_assoc base 1 i
      · rw [edges, List.find?_cons_of_neg (by simpa using Ne.symm ht), ihs h.beside hss,
          idxOf?_keys_beside ht, Option.map_map]
        congr 1
        funext i
        simp only [Function.comp_apply]
        omega

/-! ### Insertion -/

/-- A key leads to the first node, goes on from it or leads to another one beside it. -/
theorem mem_keys_node {u token : String} {markers : List Marker} {children siblings : Forest}
    {rest : List String} :
    token :: rest ∈ (node u markers children siblings).keys ↔
      (token = u ∧ (rest = [] ∨ rest ∈ children.keys)) ∨ token :: rest ∈ siblings.keys := by
  simp only [keys, List.mem_cons, List.mem_append, List.mem_map, List.cons.injEq]
  constructor
  · rintro (⟨rfl, rfl⟩ | ⟨key, hkey, rfl, rfl⟩ | h)
    · exact Or.inl ⟨rfl, Or.inl rfl⟩
    · exact Or.inl ⟨rfl, Or.inr hkey⟩
    · exact Or.inr h
  · rintro (⟨rfl, rfl | hkey⟩ | h)
    · exact Or.inl ⟨rfl, rfl⟩
    · exact Or.inr (Or.inl ⟨rest, hkey, rfl, rfl⟩)
    · exact Or.inr (Or.inr h)

/-- The keys of a path are the beginnings of its key, beside those of its siblings. -/
theorem mem_keys_path {m : Marker} {token token' : String} {rest rest' : List String}
    {siblings : Forest} :
    token' :: rest' ∈ (path m token rest siblings).keys ↔
      token' :: rest' <+: token :: rest ∨ token' :: rest' ∈ siblings.keys := by
  induction rest generalizing token siblings token' rest' with
  | nil => simp [path, keys]
  | cons next rest ih =>
      rw [path, mem_keys_node, List.cons_prefix_cons]
      cases rest' with
      | nil => simp
      | cons next' rest' => simp [ih, keys]

/-- **The keys after an insertion** are those from before and the beginnings of the new key. -/
theorem mem_keys_insert {m : Marker} {f : Forest} {token token' : String}
    {rest rest' : List String} :
    token' :: rest' ∈ (f.insert m token rest).keys ↔
      token' :: rest' <+: token :: rest ∨ token' :: rest' ∈ f.keys := by
  induction f generalizing token rest token' rest' with
  | nil => exact mem_keys_path
  | node u markers children siblings ihc ihs =>
      obtain hlt | rfl | hgt : token < u ∨ token = u ∨ u < token :=
        Std.Trichotomous.rel_or_eq_or_rel_swap
      · rw [insert_of_lt hlt, mem_keys_path]
      · cases rest with
        | nil =>
            rw [insert_self_nil, mem_keys_node, mem_keys_node, List.cons_prefix_cons,
              List.prefix_nil]
            tauto
        | cons next rest =>
            rw [insert_self_cons, mem_keys_node, mem_keys_node, List.cons_prefix_cons]
            cases rest' with
            | nil => simp
            | cons next' rest' =>
                rw [ihc]
                tauto
      · rw [insert_of_gt hgt, mem_keys_node, mem_keys_node, ihs]
        tauto

/-! ### Children -/

/-- Each place of the layout is the child of one edge, from above or from inside. -/
theorem perm_children (f : Forest) (base : Nat) :
    ((f.edges base ++ (f.layout base).flatMap Node.edges).map Edge.child).Perm
      (List.range' base f.size) := by
  induction f generalizing base with
  | nil => exact .refl _
  | node token markers children siblings ihc ihs =>
      have hplaces : List.range' base (node token markers children siblings).size =
          base :: (List.range' (base + 1) children.size ++
            List.range' (base + 1 + children.size) siblings.size) := by
        rw [List.range'_append_1, size, Nat.add_assoc, Nat.add_comm 1, List.range'_succ]
      rw [hplaces]
      refine .trans ?_ (.cons base ((ihc (base + 1)).append (ihs (base + 1 + children.size))))
      simp only [edges, layout, List.flatMap_cons, List.flatMap_append, List.map_append,
        List.map_cons, List.cons_append, List.append_assoc]
      -- the edges to the siblings come to stand behind everything that belongs to the children
      refine .cons base (.trans (List.perm_append_comm_assoc _ _ _) (.append_left _ ?_))
      exact List.perm_append_comm_assoc _ _ _

end Forest

/-! ### Trees of keys -/

namespace KeyTree

/-- The keys of the nodes, in the order of the layout. -/
def keys (t : KeyTree) : List (List String) := [] :: t.forest.keys

/-- There are as many keys as nodes of the trie. -/
theorem length_keys (t : KeyTree) : t.keys.length = t.toTrie.size := by
  simp [keys, size_toTrie, Nat.add_comm]

/-- **Keys increase** in the order of the layout. -/
theorem keys_increasing {t : KeyTree} (h : t.forest.Sorted) :
    t.keys.Pairwise (List.Lex (· < ·)) := by
  refine List.pairwise_cons.mpr ⟨fun key hkey => ?_, h.keys_increasing⟩
  obtain ⟨token, rest, rfl, -⟩ := Forest.exists_of_mem_keys hkey
  exact .nil

/-- No key comes twice. -/
theorem nodup_keys {t : KeyTree} (h : t.forest.Sorted) : t.keys.Nodup := by
  refine (keys_increasing h).imp ?_
  rintro key _ hlt rfl
  exact List.lex_irrefl String.lt_irrefl key hlt

/-- **The node of a key** is found at the place of the key in the list. -/
theorem find?_toTrie {t : KeyTree} (h : t.forest.Sorted) (key : List String) :
    t.toTrie.find? key = t.keys.idxOf? key := by
  cases key with
  | nil => simp [Trie.find?, keys, List.idxOf?_cons]
  | cons token rest =>
      have hedges : t.toTrie.edgesAt 0 = t.forest.edges 1 := by
        simp [Trie.edgesAt, node_root_toTrie]
      rw [Trie.find?, Trie.findFrom_cons, Trie.child?, hedges, Option.bind_map, keys,
        List.idxOf?_cons, if_neg (by simp)]
      refine (Forest.find?_edges t.forest_standsAt_toTrie h token rest).trans ?_
      congr 1
      funext i
      exact Nat.add_comm 1 i

/-- A node is the one of a key if and only if the key is at its place. -/
theorem find?_toTrie_eq_some_iff {t : KeyTree} (h : t.forest.Sorted) {key : List String}
    {place : Nat} : t.toTrie.find? key = some place ↔ t.keys[place]? = some key := by
  rw [find?_toTrie h, List.idxOf?_eq_some_iff, List.getElem?_eq_some_iff]
  constructor
  · rintro ⟨hlt, hkey, -⟩
    exact ⟨hlt, hkey⟩
  · rintro ⟨hlt, hkey⟩
    refine ⟨hlt, hkey, fun j hj heq => ?_⟩
    exact absurd ((nodup_keys h).getElem_inj_iff.mp (heq.trans hkey.symm)) (by omega)

/-- The markers of the tree at a key are those of its node. -/
theorem markersAt_toTrie {t : KeyTree} (h : t.forest.Sorted) {key : List String} {place : Nat}
    (hkey : t.keys[place]? = some key) : t.toTrie.markersAt place = t.markersAt key := by
  rw [← markers_toTrie]
  exact (Trie.markersFrom_of_findFrom ((find?_toTrie_eq_some_iff h).mpr hkey)).symm

/-- A key with markers is among the keys. -/
theorem mem_keys_of_mem_markersAt {t : KeyTree} (h : t.forest.Sorted) {key : List String}
    {m : Marker} (hm : m ∈ t.markersAt key) : key ∈ t.keys := by
  rw [← markers_toTrie] at hm
  obtain ⟨place, hfind, -⟩ := Trie.exists_of_mem_markersFrom hm
  exact List.mem_of_getElem? ((find?_toTrie_eq_some_iff h).mp hfind)

/-- **The keys after an insertion** are those from before and the beginnings of the new key. -/
theorem mem_keys_insert {t : KeyTree} {key other : List String} {m : Marker} :
    other ∈ (t.insert key m).keys ↔ other <+: key ∨ other ∈ t.keys := by
  cases other with
  | nil => simp [keys]
  | cons token rest =>
      cases key with
      | nil => simp [KeyTree.insert, keys]
      | cons token' rest' => simp [KeyTree.insert, keys, Forest.mem_keys_insert]

/-- **Each place but the root's is the child of one edge.** -/
theorem perm_children_toTrie (t : KeyTree) :
    ((t.toTrie.nodes.toList.flatMap Node.edges).map Edge.child).Perm
      (List.range' 1 (t.toTrie.size - 1)) := by
  rw [size_toTrie, Nat.add_sub_cancel_left]
  exact t.forest.perm_children 1

end KeyTree

end AnnotatedText
