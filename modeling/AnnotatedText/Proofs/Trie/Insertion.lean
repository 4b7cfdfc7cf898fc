import AnnotatedText.Proofs.Trie.WellFormed
import AnnotatedText.Trie.KeyTree

/-!
# Gathering keys

What one insertion does to a tree of keys: the markers at the key become those with the new marker
among them, the markers at every other key stay as they are. The siblings of a forest are searched
from the front and a new one is put in front of the first greater one, so this holds as long as
siblings increase, which every insertion preserves.

## Main results

* `Trie.attributesOf_putMarker`: of two markers of one list the later one counts, and lists do not
  know of each other.
* `Forest.markersAt_insert`, `KeyTree.markersAt_insert`: what is found after an insertion.
* `KeyTree.Ordered.insert`: what an insertion keeps.
-/

namespace AnnotatedText

/-! ### Markers of one node -/

theorem putMarker_of_lt {m n : Marker} (h : m.list < n.list) (rest : List Marker) :
    putMarker m (n :: rest) = m :: n :: rest := by
  rw [putMarker, if_pos h]

theorem putMarker_of_eq {m n : Marker} (h : m.list = n.list) (rest : List Marker) :
    putMarker m (n :: rest) = m :: rest := by
  rw [putMarker, if_neg (by omega), if_pos h]

theorem putMarker_of_gt {m n : Marker} (h : n.list < m.list) (rest : List Marker) :
    putMarker m (n :: rest) = n :: putMarker m rest := by
  rw [putMarker, if_neg (by omega), if_neg (by omega)]

namespace Trie

/-- **Of two markers of one list the later one counts**, and lists do not know of each other. -/
theorem attributesOf_putMarker (m : Marker) (markers : List Marker) (list : Nat) :
    attributesOf (putMarker m markers) list =
      if m.list = list then some m.attributes else attributesOf markers list := by
  induction markers with
  | nil => exact attributesOf_cons m [] list
  | cons n rest ih =>
      obtain hlt | heq | hgt := Nat.lt_trichotomy m.list n.list
      · rw [putMarker_of_lt hlt, attributesOf_cons]
      · rw [putMarker_of_eq heq, attributesOf_cons, attributesOf_cons, heq]
        by_cases h : n.list = list <;> simp [h]
      · rw [putMarker_of_gt hgt, attributesOf_cons, attributesOf_cons, ih]
        by_cases h : n.list = list
        · have hne : m.list ≠ list := by omega
          simp [h, hne]
        · simp [h]

end Trie

/-- Putting a marker adds no other. -/
theorem mem_putMarker {m x : Marker} {markers : List Marker} (h : x ∈ putMarker m markers) :
    x = m ∨ x ∈ markers := by
  induction markers with
  | nil => simpa [putMarker] using h
  | cons n rest ih =>
      obtain hlt | heq | hgt := Nat.lt_trichotomy m.list n.list
      · rw [putMarker_of_lt hlt] at h
        exact List.mem_cons.mp h
      · rw [putMarker_of_eq heq] at h
        exact (List.mem_cons.mp h).imp_right (List.mem_cons_of_mem _)
      · rw [putMarker_of_gt hgt] at h
        rcases List.mem_cons.mp h with rfl | h
        · exact Or.inr List.mem_cons_self
        · exact (ih h).imp_right (List.mem_cons_of_mem _)

/-- Markers stay in the order of their lists. -/
theorem pairwise_putMarker (m : Marker) {markers : List Marker}
    (h : markers.Pairwise fun a b => a.list < b.list) :
    (putMarker m markers).Pairwise fun a b => a.list < b.list := by
  induction markers with
  | nil => exact List.pairwise_singleton _ _
  | cons n rest ih =>
      obtain ⟨hn, hrest⟩ := List.pairwise_cons.mp h
      obtain hlt | heq | hgt := Nat.lt_trichotomy m.list n.list
      · rw [putMarker_of_lt hlt]
        refine List.pairwise_cons.mpr ⟨fun x hx => ?_, h⟩
        rcases List.mem_cons.mp hx with rfl | hx
        · exact hlt
        · exact Nat.lt_trans hlt (hn x hx)
      · rw [putMarker_of_eq heq]
        exact List.pairwise_cons.mpr ⟨fun x hx => heq ▸ hn x hx, hrest⟩
      · rw [putMarker_of_gt hgt]
        refine List.pairwise_cons.mpr ⟨fun x hx => ?_, ih hrest⟩
        rcases mem_putMarker hx with rfl | hx
        · exact hgt
        · exact hn x hx

namespace MarkersFit

variable {lists : List (List Column)}

theorem nil : MarkersFit lists [] := ⟨List.Pairwise.nil, by simp⟩

/-- A marker fits alone if its attributes fit the columns of its list. -/
theorem singleton {m : Marker} {columns : List Column} (hl : lists[m.list]? = some columns)
    (hm : fitsColumns m.attributes columns = true) : MarkersFit lists [m] :=
  ⟨List.pairwise_singleton _ _, by simpa using ⟨columns, hl, hm⟩⟩

/-- A marker that fits is put among others that do. -/
theorem putMarker {markers : List Marker} (h : MarkersFit lists markers) {m : Marker}
    (hm : MarkersFit lists [m]) : MarkersFit lists (putMarker m markers) := by
  refine ⟨pairwise_putMarker m h.sorted, fun x hx => ?_⟩
  rcases mem_putMarker hx with rfl | hx
  · exact hm.fits x (by simp)
  · exact h.fits x hx

/-- Markers still fit when further lists are declared. -/
theorem append {markers : List Marker} (h : MarkersFit lists markers) (more : List (List Column)) :
    MarkersFit (lists ++ more) markers := by
  refine ⟨h.sorted, fun m hm => ?_⟩
  obtain ⟨columns, hl, hfit⟩ := h.fits m hm
  have hlt := (List.getElem?_eq_some_iff.mp hl).1
  exact ⟨columns, by rw [List.getElem?_append_left hlt, hl], hfit⟩

end MarkersFit

/-! ### Forests -/

namespace Forest

/-- The tokens of the topmost nodes. -/
def heads : Forest → List String
  | nil => []
  | node token _ _ siblings => token :: siblings.heads

/-- Siblings increase everywhere in the forest. -/
def Sorted : Forest → Prop
  | nil => True
  | node token _ children siblings =>
    (∀ u ∈ siblings.heads, token < u) ∧ children.Sorted ∧ siblings.Sorted

/-- The markers of all nodes have a property. -/
def Every (p : List Marker → Prop) : Forest → Prop
  | nil => True
  | node _ markers children siblings => p markers ∧ children.Every p ∧ siblings.Every p

/-- What follows from a property that all nodes have, all nodes have too. -/
theorem Every.imp {p q : List Marker → Prop} (hpq : ∀ ms, p ms → q ms) {f : Forest}
    (h : f.Every p) : f.Every q := by
  induction f with
  | nil => trivial
  | node token markers children siblings ihc ihs =>
      exact ⟨hpq markers h.1, ihc h.2.1, ihs h.2.2⟩

section Equations

variable {m : Marker} {token u : String} {markers : List Marker} {children siblings : Forest}

theorem insert_of_lt (h : token < u) (rest : List String) :
    (node u markers children siblings).insert m token rest =
      path m token rest (node u markers children siblings) := by
  simp [insert, h]

@[simp] theorem insert_self_nil :
    (node u markers children siblings).insert m u [] =
      node u (putMarker m markers) children siblings := by
  simp [insert]

@[simp] theorem insert_self_cons (next : String) (rest : List String) :
    (node u markers children siblings).insert m u (next :: rest) =
      node u markers (children.insert m next rest) siblings := by
  simp [insert]

theorem insert_of_gt (h : u < token) (rest : List String) :
    (node u markers children siblings).insert m token rest =
      node u markers children (siblings.insert m token rest) := by
  have hne : token ≠ u := fun he => String.lt_irrefl u (he ▸ h)
  simp [insert, String.lt_asymm h, hne]

@[simp] theorem markersAt_self_nil :
    (node u markers children siblings).markersAt u [] = markers := by
  simp [markersAt]

@[simp] theorem markersAt_self_cons (next : String) (rest : List String) :
    (node u markers children siblings).markersAt u (next :: rest) =
      children.markersAt next rest := by
  simp [markersAt]

/-- A key whose first token is another is found among the siblings. -/
theorem markersAt_of_ne (h : token ≠ u) (rest : List String) :
    (node u markers children siblings).markersAt token rest = siblings.markersAt token rest := by
  simp [markersAt, h]

end Equations

/-- A token that is no topmost node's begins no key. -/
theorem markersAt_of_notMem_heads {f : Forest} {token : String} (h : token ∉ f.heads)
    (rest : List String) : f.markersAt token rest = [] := by
  induction f with
  | nil => rfl
  | node u markers children siblings _ ihs =>
      simp only [heads, List.mem_cons, not_or] at h
      rw [markersAt_of_ne h.1, ihs h.2]

/-- A token in front of all topmost nodes begins no key. -/
theorem Sorted.markersAt_of_lt {u : String} {markers : List Marker} {children siblings : Forest}
    (h : (node u markers children siblings).Sorted) {token : String} (hu : token < u)
    (rest : List String) : (node u markers children siblings).markersAt token rest = [] := by
  refine markersAt_of_notMem_heads (fun hm => ?_) rest
  rcases List.mem_cons.mp hm with rfl | hm
  · exact String.lt_irrefl token hu
  · exact String.lt_irrefl u (String.lt_trans (h.1 token hm) hu)

/-! ### A single path -/

theorem heads_path (m : Marker) (token : String) (rest : List String) (siblings : Forest) :
    (path m token rest siblings).heads = token :: siblings.heads := by
  cases rest <;> rfl

/-- A path in front of greater siblings keeps the siblings increasing. -/
theorem sorted_path (m : Marker) {token : String} (rest : List String) {siblings : Forest}
    (hlt : ∀ u ∈ siblings.heads, token < u) (h : siblings.Sorted) :
    (path m token rest siblings).Sorted := by
  induction rest generalizing token siblings with
  | nil => exact ⟨hlt, trivial, h⟩
  | cons next rest ih => exact ⟨hlt, ih (by simp [heads]) trivial, h⟩

/-- A path has its marker at its last node and none before. -/
theorem every_path {p : List Marker → Prop} (hnil : p []) {m : Marker} (hm : p [m])
    (token : String) (rest : List String) {siblings : Forest} (h : siblings.Every p) :
    (path m token rest siblings).Every p := by
  induction rest generalizing token siblings with
  | nil => exact ⟨hm, trivial, h⟩
  | cons next rest ih => exact ⟨hnil, ih next trivial, h⟩

/-- On a path the marker is found at its key and nothing before, and all else beside it. -/
theorem markersAt_path (m : Marker) (token : String) (rest : List String) (siblings : Forest)
    (token' : String) (rest' : List String) :
    (path m token rest siblings).markersAt token' rest' =
      if token' = token then (if rest' = rest then [m] else [])
      else siblings.markersAt token' rest' := by
  induction rest generalizing token siblings token' rest' with
  | nil =>
      by_cases h : token' = token
      · cases rest' <;> simp [path, markersAt, h]
      · simp [path, markersAt, h]
  | cons next rest ih =>
      by_cases h : token' = token
      · subst h
        cases rest' with
        | nil => simp [path]
        | cons next' rest' => by_cases hn : next' = next <;> simp [path, ih, hn, markersAt]
      · simp [path, markersAt, h]

/-! ### Insertion -/

/-- An insertion adds no other topmost node than one of its first token. -/
theorem mem_heads_insert {m : Marker} {f : Forest} {token u : String} {rest : List String}
    (h : u ∈ (f.insert m token rest).heads) : u = token ∨ u ∈ f.heads := by
  induction f with
  | nil => simpa [insert, heads_path, heads] using h
  | node v markers children siblings _ ihs =>
      obtain hlt | rfl | hgt : token < v ∨ token = v ∨ v < token :=
        Std.Trichotomous.rel_or_eq_or_rel_swap
      · rw [insert_of_lt hlt, heads_path] at h
        exact List.mem_cons.mp h
      · -- the node itself stays where it is, whatever becomes of its markers and children
        cases rest with
        | nil => exact Or.inr (by simpa [heads] using h)
        | cons next rest => exact Or.inr (by simpa [heads] using h)
      · rw [insert_of_gt hgt] at h
        rcases List.mem_cons.mp h with rfl | h
        · exact Or.inr List.mem_cons_self
        · exact (ihs h).imp_right (List.mem_cons_of_mem _)

/-- Insertion keeps siblings increasing. -/
theorem Sorted.insert {f : Forest} (h : f.Sorted) (m : Marker) (token : String)
    (rest : List String) : (f.insert m token rest).Sorted := by
  induction f generalizing token rest with
  | nil => exact sorted_path m rest (by simp [heads]) trivial
  | node u markers children siblings ihc ihs =>
      obtain ⟨hu, hc, hs⟩ := h
      obtain hlt | rfl | hgt : token < u ∨ token = u ∨ u < token :=
        Std.Trichotomous.rel_or_eq_or_rel_swap
      · rw [insert_of_lt hlt]
        refine sorted_path m rest (fun v hv => ?_) ⟨hu, hc, hs⟩
        rcases List.mem_cons.mp hv with rfl | hv
        · exact hlt
        · exact String.lt_trans hlt (hu v hv)
      · cases rest with
        | nil => exact insert_self_nil ▸ ⟨hu, hc, hs⟩
        | cons next rest => exact insert_self_cons next rest ▸ ⟨hu, ihc hc next rest, hs⟩
      · rw [insert_of_gt hgt]
        refine ⟨fun v hv => ?_, hc, ihs hs token rest⟩
        rcases mem_heads_insert hv with rfl | hv
        · exact hgt
        · exact hu v hv

/-- What putting a marker keeps of the markers of a node, an insertion keeps of all nodes. -/
theorem Every.insert {p : List Marker → Prop} (hnil : p []) {m : Marker} (hm : p [m])
    (hput : ∀ ms, p ms → p (putMarker m ms)) {f : Forest} (h : f.Every p) (token : String)
    (rest : List String) : (f.insert m token rest).Every p := by
  induction f generalizing token rest with
  | nil => exact every_path hnil hm token rest trivial
  | node u markers children siblings ihc ihs =>
      obtain ⟨hu, hc, hs⟩ := h
      obtain hlt | rfl | hgt : token < u ∨ token = u ∨ u < token :=
        Std.Trichotomous.rel_or_eq_or_rel_swap
      · rw [insert_of_lt hlt]
        exact every_path hnil hm token rest ⟨hu, hc, hs⟩
      · cases rest with
        | nil => exact insert_self_nil ▸ ⟨hput markers hu, hc, hs⟩
        | cons next rest => exact insert_self_cons next rest ▸ ⟨hu, ihc hc next rest, hs⟩
      · rw [insert_of_gt hgt]
        exact ⟨hu, hc, ihs hs token rest⟩

/-- **An insertion is found at its key**, and nothing else is found elsewhere than before. -/
theorem markersAt_insert {f : Forest} (h : f.Sorted) (m : Marker) (token : String)
    (rest : List String) (token' : String) (rest' : List String) :
    (f.insert m token rest).markersAt token' rest' =
      if token' = token ∧ rest' = rest then putMarker m (f.markersAt token rest)
      else f.markersAt token' rest' := by
  induction f generalizing token rest token' rest' with
  | nil =>
      rw [insert, markersAt_path]
      by_cases ht : token' = token <;> by_cases hr : rest' = rest <;>
        simp [ht, hr, markersAt, putMarker]
  | node u markers children siblings ihc ihs =>
      obtain hlt | rfl | hgt : token < u ∨ token = u ∨ u < token :=
        Std.Trichotomous.rel_or_eq_or_rel_swap
      · -- the key is new: no node of this forest has its first token
        rw [insert_of_lt hlt, markersAt_path, h.markersAt_of_lt hlt]
        by_cases ht : token' = token
        · subst ht
          by_cases hr : rest' = rest <;> simp [hr, putMarker, h.markersAt_of_lt hlt]
        · simp [ht]
      · obtain ⟨-, hc, -⟩ := h
        by_cases ht : token' = token
        · subst ht
          cases rest <;> cases rest' <;> simp [ihc hc]
        · cases rest <;> simp [ht, markersAt_of_ne ht]
      · obtain ⟨-, -, hs⟩ := h
        have hne : token ≠ u := fun he => String.lt_irrefl u (he ▸ hgt)
        rw [insert_of_gt hgt, markersAt_of_ne hne]
        by_cases ht : token' = u
        · subst ht
          cases rest' <;> simp [Ne.symm hne]
        · rw [markersAt_of_ne ht, markersAt_of_ne ht, ihs hs]

end Forest

/-! ### Trees of keys -/

namespace KeyTree

/-- An insertion keeps siblings increasing. -/
theorem sorted_insert {t : KeyTree} (h : t.forest.Sorted) (key : List String) (m : Marker) :
    (t.insert key m).forest.Sorted := by
  cases key with
  | nil => exact h
  | cons token rest => exact h.insert m token rest

/-- What building keeps of a tree of keys: siblings increase, and all markers fit the lists. -/
structure Ordered (lists : List (List Column)) (t : KeyTree) : Prop where
  forest_sorted : t.forest.Sorted
  forest_fits : t.forest.Every (MarkersFit lists)
  root_fits : MarkersFit lists t.rootMarkers

variable {lists : List (List Column)} {t : KeyTree}

theorem Ordered.empty : Ordered lists empty := ⟨trivial, trivial, MarkersFit.nil⟩

/-- A tree stays ordered when further lists are declared. -/
theorem Ordered.append (h : t.Ordered lists) (more : List (List Column)) :
    t.Ordered (lists ++ more) :=
  ⟨h.forest_sorted, h.forest_fits.imp fun _ hm => hm.append more, h.root_fits.append more⟩

/-- An insertion of a marker that fits keeps the tree ordered. -/
theorem Ordered.insert (h : t.Ordered lists) {m : Marker} (hm : MarkersFit lists [m])
    (key : List String) : (t.insert key m).Ordered lists := by
  cases key with
  | nil => exact ⟨h.forest_sorted, h.forest_fits, h.root_fits.putMarker hm⟩
  | cons token rest =>
      exact ⟨sorted_insert h.forest_sorted (token :: rest) m,
        h.forest_fits.insert MarkersFit.nil hm (fun _ hms => hms.putMarker hm) token rest,
        h.root_fits⟩

/-- **What is found after an insertion.** -/
theorem markersAt_insert (h : t.forest.Sorted) (key : List String) (m : Marker)
    (key' : List String) :
    (t.insert key m).markersAt key' =
      if key' = key then putMarker m (t.markersAt key) else t.markersAt key' := by
  cases key with
  | nil => cases key' <;> simp [KeyTree.insert, markersAt]
  | cons token rest =>
      cases key' with
      | nil => simp [KeyTree.insert, markersAt]
      | cons token' rest' =>
          simp [KeyTree.insert, markersAt, Forest.markersAt_insert h]

end KeyTree

end AnnotatedText
