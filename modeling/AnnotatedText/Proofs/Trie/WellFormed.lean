import AnnotatedText.Proofs.Increasing
import AnnotatedText.Trie.Basic

/-!
# Well-formed tries

What `Trie.verify` checks, said without the check. A node is **well-formed** at a place of a trie if
its edges increase, its children stand behind it and inside the trie, its markers increase, and each
marker belongs to a declared list and fits the columns of that list. A trie is well-formed if it has
a root and all its nodes are well-formed.

Nothing is said about which nodes can be reached: a child may have several parents and a node none,
and the root may have markers.

## Main results

* `Trie.verify_eq_ok_iff`: the check accepts exactly the well-formed tries.
* `Trie.attributesOf_eq_some_iff`: among markers in order, what the attributes of a list are.
* `Trie.WellFormed.lt_of_mem_markersAt`, `Trie.WellFormed.marker_unique`: the markers of a node name
  declared lists, each at most once.
-/

namespace AnnotatedText

/-- The markers of a node **fit** lists with the given columns: they increase, and each belongs to a
list and has one attribute for each of its columns, of the column's kind. -/
structure MarkersFit (lists : List (List Column)) (markers : List Marker) : Prop where
  sorted : markers.Pairwise fun a b => a.list < b.list
  fits : ∀ m ∈ markers, ∃ columns,
    lists[m.list]? = some columns ∧ fitsColumns m.attributes columns = true

/-- A node is **well-formed** at the place `place` of a trie with `count` nodes and lists with the
given columns. -/
structure Node.WellFormed (lists : List (List Column)) (count place : Nat) (n : Node) : Prop where
  edges_sorted : n.edges.Pairwise fun a b => a.token < b.token
  children_behind : ∀ e ∈ n.edges, place < e.child ∧ e.child < count
  markers_fit : MarkersFit lists n.markers

namespace Trie

/-- A trie is **well-formed** over lists with the given columns. -/
structure WellFormed (lists : List (List Column)) (t : Trie) : Prop where
  has_root : 0 < t.size
  node_wellFormed : ∀ place (n : Node), t.nodes[place]? = some n → n.WellFormed lists t.size place

/-! ### The check of one node -/

/-- The order of the edges is checked between neighbours only, which is enough. -/
theorem checkEdgeOrder_eq_ok_iff {node : Nat} {edges : List Edge} :
    checkEdgeOrder node edges = .ok () ↔ edges.Pairwise fun a b => a.token < b.token := by
  fun_induction checkEdgeOrder node edges with
  | case1 a b rest h ih =>
      rw [ih, List.pairwise_cons (a := a)]
      refine ⟨fun hp => ⟨fun c hc => ?_, hp⟩, fun hp => hp.2⟩
      rcases List.mem_cons.mp hc with rfl | hc
      · exact h
      · exact String.lt_trans h (List.rel_of_pairwise_cons hp hc)
  | case2 a b rest h =>
      refine iff_of_false nofun fun hp => ?_
      exact h (List.rel_of_pairwise_cons hp List.mem_cons_self)
  | case3 edges h =>
      match edges, h with
      | [], _ => simp
      | [a], _ => simp
      | a :: b :: rest, h => exact absurd rfl (h a b rest)

/-- The check of children passes if all stand behind the node and in the trie. -/
theorem checkChildren_eq_ok_iff {count node : Nat} {edges : List Edge} :
    checkChildren count node edges = .ok () ↔
      ∀ e ∈ edges, node < e.child ∧ e.child < count := by
  induction edges with
  | nil => simp [checkChildren]
  | cons e rest ih =>
      by_cases h : node < e.child ∧ e.child < count
      · simp [checkChildren, h, ih]
      · simp [checkChildren, h]

/-- Kinds are compared as far as both lists go. -/
theorem checkKinds_eq_ok_iff {node list : Nat} {values : List Scalar} {columns : List Column}
    (h : values.length = columns.length) :
    checkKinds node list values columns = .ok () ↔ fitsColumns values columns = true := by
  induction values generalizing columns with
  | nil =>
      obtain rfl : columns = [] := List.length_eq_zero_iff.mp h.symm
      simp [checkKinds, fitsColumns]
  | cons v values ih =>
      cases columns with
      | nil => simp at h
      | cons column columns =>
          have ih := ih (Nat.succ.inj h)
          by_cases hk : v.kind = column.kind
          · simp only [checkKinds, hk, if_true, ih]
            simp [fitsColumns, hk]
          · simp [checkKinds, hk, fitsColumns]

/-- There are as many fitting values as columns. -/
theorem length_eq_of_fitsColumns {values : List Scalar} {columns : List Column}
    (h : fitsColumns values columns = true) : values.length = columns.length := by
  have hmap : values.map Scalar.kind = columns.map Column.kind := by simpa [fitsColumns] using h
  simpa using congrArg List.length hmap

/-- The check of a marker passes if its list comes behind the one before it and its attributes fit
the columns of the list. -/
theorem checkMarker_eq_ok_iff {lists : List (List Column)} {node : Nat} {previous? : Option Nat}
    {m : Marker} :
    checkMarker lists node previous? m = .ok () ↔
      (∀ p ∈ previous?, p < m.list) ∧
        ∃ columns, lists[m.list]? = some columns ∧ fitsColumns m.attributes columns = true := by
  cases hl : lists[m.list]? with
  | none => simp [checkMarker, hl]
  | some columns =>
      have hprev : previous?.any (m.list ≤ ·) = true ↔ ¬ ∀ p ∈ previous?, p < m.list := by
        cases previous? <;> simp
      rw [checkMarker, hl]
      by_cases hp : ∀ p ∈ previous?, p < m.list
      · have hany : ¬ previous?.any (m.list ≤ ·) = true := fun h => hprev.mp h hp
        by_cases hlen : m.attributes.length = columns.length
        · simp only [hany, hlen, ne_eq, not_true_eq_false, if_false, Bool.false_eq_true,
            checkKinds_eq_ok_iff hlen]
          exact ⟨fun hfit => ⟨hp, columns, rfl, hfit⟩, fun ⟨_, _, h, hfit⟩ => by cases h; exact hfit⟩
        · have hfit : ¬ fitsColumns m.attributes columns = true :=
            fun h => hlen (length_eq_of_fitsColumns h)
          simp [hany, hlen, hfit]
      · have hany := hprev.mpr hp
        simp only [hany, if_true, reduceCtorEq, false_iff]
        exact fun h => hp h.1

/-- Each marker is checked against the one before it; that puts all of them in order. -/
theorem checkMarkers_eq_ok_iff {lists : List (List Column)} {node : Nat} {previous? : Option Nat}
    {markers : List Marker} :
    checkMarkers lists node previous? markers = .ok () ↔
      (∀ p ∈ previous?, ∀ m ∈ markers, p < m.list) ∧ MarkersFit lists markers := by
  induction markers generalizing previous? with
  | nil => exact ⟨fun _ => ⟨by simp, List.Pairwise.nil, by simp⟩, fun _ => rfl⟩
  | cons m rest ih =>
      cases hm : checkMarker lists node previous? m with
      | error fault =>
          have hno : ¬ checkMarker lists node previous? m = .ok () := by simp [hm]
          rw [checkMarker_eq_ok_iff] at hno
          simp only [checkMarkers, hm, reduceCtorEq, false_iff]
          rintro ⟨hp, -, hfit⟩
          exact hno ⟨fun p hpm => hp p hpm m (by simp), hfit m (by simp)⟩
      | ok _ =>
          obtain ⟨hp, hfit⟩ := checkMarker_eq_ok_iff.mp hm
          simp only [checkMarkers, hm, ih, Option.mem_some_iff, forall_eq', List.forall_mem_cons]
          constructor
          · rintro ⟨hlt, hsorted, hrest⟩
            refine ⟨fun p hpm => ⟨hp p hpm, fun n hn => Nat.lt_trans (hp p hpm) (hlt n hn)⟩, ?_, ?_⟩
            · exact List.pairwise_cons.mpr ⟨hlt, hsorted⟩
            · exact List.forall_mem_cons.mpr ⟨hfit, hrest⟩
          · rintro ⟨-, hsorted, hfits⟩
            obtain ⟨hlt, hsorted⟩ := List.pairwise_cons.mp hsorted
            exact ⟨hlt, hsorted, (List.forall_mem_cons.mp hfits).2⟩

/-- The check of a node passes if and only if the node is well-formed. -/
theorem checkNode_eq_ok_iff {lists : List (List Column)} {count place : Nat} {n : Node} :
    checkNode lists count place n = .ok () ↔ n.WellFormed lists count place := by
  rw [checkNode]
  constructor
  · intro h
    split at h
    · cases h
    · rename_i hedges
      split at h
      · cases h
      · rename_i hchildren
        exact ⟨checkEdgeOrder_eq_ok_iff.mp hedges, checkChildren_eq_ok_iff.mp hchildren,
          (checkMarkers_eq_ok_iff.mp h).2⟩
  · rintro ⟨hedges, hchildren, hfit⟩
    rw [checkEdgeOrder_eq_ok_iff.mpr hedges]
    simp only [checkChildren_eq_ok_iff.mpr hchildren]
    exact checkMarkers_eq_ok_iff.mpr ⟨by simp, hfit⟩

/-! ### The check of a trie -/

/-- The check of nodes passes if and only if each is well-formed at its place. -/
theorem checkNodes_eq_ok_iff {lists : List (List Column)} {count place : Nat} {nodes : List Node} :
    checkNodes lists count place nodes = .ok () ↔
      ∀ i (n : Node), nodes[i]? = some n → n.WellFormed lists count (place + i) := by
  induction nodes generalizing place with
  | nil => simp [checkNodes]
  | cons n rest ih =>
      have hsplit : (∀ i (x : Node), (n :: rest)[i]? = some x → x.WellFormed lists count (place + i)) ↔
          n.WellFormed lists count place ∧
            ∀ i (x : Node), rest[i]? = some x → x.WellFormed lists count (place + 1 + i) := by
        constructor
        · intro h
          refine ⟨h 0 n rfl, fun i x hx => ?_⟩
          have := h (i + 1) x hx
          rwa [Nat.add_assoc, Nat.add_comm 1 i]
        · rintro ⟨hn, hrest⟩ (_ | i) x hx
          · obtain rfl : n = x := by simpa using hx
            exact hn
          · have := hrest i x hx
            rwa [Nat.add_assoc, Nat.add_comm 1 i] at this
      rw [hsplit, ← checkNode_eq_ok_iff, ← ih]
      cases h : checkNode lists count place n with
      | error fault => simp [checkNodes, h]
      | ok _ => simp [checkNodes, h]

/-- **The check accepts exactly the well-formed tries.** -/
theorem verify_eq_ok_iff {lists : List (List Column)} {t : Trie} :
    t.verify lists = .ok () ↔ t.WellFormed lists := by
  by_cases hempty : t.nodes.isEmpty = true
  · have hno : ¬ t.WellFormed lists := by
      rintro ⟨hroot, -⟩
      simp_all [size]
    simp [verify, hempty, hno]
  · have hroot : 0 < t.size := by
      simp only [Array.isEmpty_iff_size_eq_zero] at hempty
      exact Nat.pos_of_ne_zero hempty
    rw [verify, if_neg hempty, checkNodes_eq_ok_iff]
    simp only [Array.getElem?_toList, Nat.zero_add]
    exact ⟨fun h => ⟨hroot, h⟩, fun h => h.node_wellFormed⟩

/-! ### Attributes of a list -/

/-- The first marker of a list counts. -/
theorem attributesOf_cons (m : Marker) (rest : List Marker) (list : Nat) :
    attributesOf (m :: rest) list =
      if m.list = list then some m.attributes else attributesOf rest list := by
  by_cases h : m.list = list <;> simp [attributesOf, h]

/-- Whether there are attributes of a list. -/
theorem isSome_attributesOf_iff {markers : List Marker} {list : Nat} :
    (attributesOf markers list).isSome = true ↔ ∃ m ∈ markers, m.list = list := by
  simp [attributesOf]

/-- Among markers in the order of their lists, the attributes of a list are those of its marker. -/
theorem attributesOf_eq_some_iff {markers : List Marker}
    (h : markers.Pairwise fun a b => a.list < b.list) {m : Marker} :
    attributesOf markers m.list = some m.attributes ↔ m ∈ markers := by
  rw [attributesOf, Option.map_eq_some_iff]
  constructor
  · rintro ⟨n, hn, hattributes⟩
    have hlist : n.list = m.list := by simpa using List.find?_some hn
    obtain ⟨list, attributes⟩ := m
    obtain ⟨list', attributes'⟩ := n
    obtain rfl : list' = list := hlist
    obtain rfl : attributes' = attributes := hattributes
    exact List.mem_of_find?_eq_some hn
  · intro hm
    exact ⟨m, find?_of_mem_increasing Marker.list h hm, rfl⟩

/-! ### What well-formedness gives -/

namespace WellFormed

variable {lists : List (List Column)} {t : Trie}

/-- The edges of a node are in the order of their tokens. -/
theorem edges_sorted (h : t.WellFormed lists) (place : Nat) :
    (t.edgesAt place).Pairwise fun a b => a.token < b.token := by
  unfold edgesAt
  split
  · rename_i n hn
    exact (h.node_wellFormed place n hn).edges_sorted
  · exact List.Pairwise.nil

/-- No edge leads out of the trie. -/
theorem child_lt (h : t.WellFormed lists) {place : Nat} {e : Edge} (he : e ∈ t.edgesAt place) :
    e.child < t.size := by
  unfold edgesAt at he
  split at he
  · rename_i n hn
    exact ((h.node_wellFormed place n hn).children_behind e he).2
  · exact absurd he List.not_mem_nil

/-- The markers of a node are in the order of their lists. -/
theorem markers_sorted (h : t.WellFormed lists) (place : Nat) :
    (t.markersAt place).Pairwise fun a b => a.list < b.list := by
  unfold markersAt
  split
  · rename_i n hn
    exact (h.node_wellFormed place n hn).markers_fit.sorted
  · exact List.Pairwise.nil

/-- Markers name declared lists. -/
theorem lt_of_mem_markersAt (h : t.WellFormed lists) {place : Nat} {m : Marker}
    (hm : m ∈ t.markersAt place) : m.list < lists.length := by
  unfold markersAt at hm
  split at hm
  · rename_i n hn
    obtain ⟨columns, hcolumns, -⟩ := (h.node_wellFormed place n hn).markers_fit.fits m hm
    exact (List.getElem?_eq_some_iff.mp hcolumns).1
  · simp at hm

/-- The attributes of a list at a node are those of its marker. -/
theorem attributesOf_markersAt (h : t.WellFormed lists) {place : Nat} {m : Marker}
    (hm : m ∈ t.markersAt place) :
    Trie.attributesOf (t.markersAt place) m.list = some m.attributes :=
  (attributesOf_eq_some_iff (h.markers_sorted place)).mpr hm

/-- A node has at most one marker of a list. -/
theorem marker_unique (h : t.WellFormed lists) {place : Nat} {a b : Marker}
    (ha : a ∈ t.markersAt place) (hb : b ∈ t.markersAt place) (hab : a.list = b.list) : a = b := by
  have hattributes := h.attributesOf_markersAt ha
  rw [hab, h.attributesOf_markersAt hb] at hattributes
  obtain ⟨list, attributes⟩ := a
  obtain ⟨list', attributes'⟩ := b
  obtain rfl : list = list' := hab
  obtain rfl : attributes' = attributes := Option.some.inj hattributes
  rfl

end WellFormed

end Trie

end AnnotatedText
