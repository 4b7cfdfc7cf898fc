import Mathlib.Data.List.Nodup
import AnnotatedText.Proofs.Trie.Insertion
import AnnotatedText.Trie.Builder

/-!
# Trees of keys in an array

A builder has its nodes in an array, in the order in which they were needed. A place of the array
**holds** a tree of keys, `TrieBuilder.HoldsAt`, if the children of its node and what is behind them
spell the forest of the tree, `TrieBuilder.Spells`. Both tell at which places the nodes stand, in
the order of the layout. Nodes at other places do not count, so a change there leaves the tree alone.

An insertion goes down one token at a time. To the tree it means that another tree is put behind the
first token of the key, `Forest.put`. To the array it means that the children of a node are opened
at the token, `TrieBuilder.Opens`: the child stands between nodes in front of it and nodes behind
it, which do not change whatever the rest of the insertion does. So after one step down,
`TrieBuilder.Descends`, what becomes of the child is put behind the token, and the insertion follows
by induction on the key.

## Main results

* `Forest.insert_eq_put`: an insertion puts another tree behind the first token.
* `TrieBuilder.HoldsAt.insertFrom`: an insertion in the array is one in the tree.
-/

namespace AnnotatedText

/-! ### The tree behind a token -/

namespace Forest

/-- The tree behind the topmost node of a token, without keys if there is none. -/
def behind (token : String) : Forest → KeyTree
  | nil => .empty
  | node u markers children siblings =>
    if token < u then .empty
    else if token = u then ⟨markers, children⟩
    else siblings.behind token

/-- Puts a tree behind the topmost node of a token, which is added if there is none. -/
def put (token : String) (t : KeyTree) : Forest → Forest
  | nil => node token t.rootMarkers t.forest nil
  | node u markers children siblings =>
    if token < u then node token t.rootMarkers t.forest (node u markers children siblings)
    else if token = u then node u t.rootMarkers t.forest siblings
    else node u markers children (siblings.put token t)

section Equations

variable {token u : String} {markers : List Marker} {children siblings : Forest} {t : KeyTree}

theorem behind_of_lt (h : token < u) :
    (node u markers children siblings).behind token = .empty := by
  simp [behind, h]

@[simp] theorem behind_self :
    (node u markers children siblings).behind u = ⟨markers, children⟩ := by
  simp [behind]

theorem behind_of_gt (h : u < token) :
    (node u markers children siblings).behind token = siblings.behind token := by
  have hne : token ≠ u := fun he => String.lt_irrefl u (he ▸ h)
  simp [behind, String.lt_asymm h, hne]

theorem put_of_lt (h : token < u) :
    (node u markers children siblings).put token t =
      node token t.rootMarkers t.forest (node u markers children siblings) := by
  simp [put, h]

@[simp] theorem put_self :
    (node u markers children siblings).put u t = node u t.rootMarkers t.forest siblings := by
  simp [put]

theorem put_of_gt (h : u < token) :
    (node u markers children siblings).put token t =
      node u markers children (siblings.put token t) := by
  have hne : token ≠ u := fun he => String.lt_irrefl u (he ▸ h)
  simp [put, String.lt_asymm h, hne]

end Equations

/-- A single path is a node with an insertion of the rest behind it. -/
theorem path_eq (m : Marker) (token : String) (rest : List String) (siblings : Forest) :
    path m token rest siblings =
      node token (KeyTree.empty.insert rest m).rootMarkers (KeyTree.empty.insert rest m).forest
        siblings := by
  cases rest <;> rfl

/-- **An insertion puts another tree behind the first token of the key**, the one that was there
with the insertion of the rest. -/
theorem insert_eq_put (m : Marker) (f : Forest) (token : String) (rest : List String) :
    f.insert m token rest = f.put token ((f.behind token).insert rest m) := by
  induction f with
  | nil => exact path_eq m token rest nil
  | node u markers children siblings _ ihs =>
      obtain hlt | rfl | hgt : token < u ∨ token = u ∨ u < token :=
        Std.Trichotomous.rel_or_eq_or_rel_swap
      · rw [insert_of_lt hlt, put_of_lt hlt, behind_of_lt hlt, path_eq]
      · cases rest <;> simp [KeyTree.insert]
      · rw [insert_of_gt hgt, put_of_gt hgt, behind_of_gt hgt, ihs]

/-- The markers at a key are found behind its first token. -/
theorem Sorted.markersAt_behind {f : Forest} (h : f.Sorted) (token : String)
    (rest : List String) : (f.behind token).markersAt rest = f.markersAt token rest := by
  induction f with
  | nil => cases rest <;> rfl
  | node u markers children siblings _ ihs =>
      obtain hlt | rfl | hgt : token < u ∨ token = u ∨ u < token :=
        Std.Trichotomous.rel_or_eq_or_rel_swap
      · rw [h.markersAt_of_lt hlt, behind_of_lt hlt]
        cases rest <;> rfl
      · cases rest <;> simp [KeyTree.markersAt]
      · have hne : token ≠ u := fun he => String.lt_irrefl u (he ▸ hgt)
        rw [behind_of_gt hgt, markersAt_of_ne hne, ihs h.2.2]

/-- Siblings increase behind each token. -/
theorem Sorted.behind {f : Forest} (h : f.Sorted) (token : String) :
    (f.behind token).forest.Sorted := by
  induction f with
  | nil => trivial
  | node u markers children siblings _ ihs =>
      obtain ⟨-, hc, hs⟩ := h
      rw [Forest.behind]
      split
      · trivial
      · split
        · exact hc
        · exact ihs hs

end Forest

/-! ### Children -/

section ChildOrInsert

variable {token u : String} {next child : Nat} {rest : List (String × Nat)}

theorem childOrInsert_of_lt (h : token < u) :
    childOrInsert token next ((u, child) :: rest) =
      (next, (token, next) :: (u, child) :: rest) := by
  simp [childOrInsert, h]

@[simp] theorem childOrInsert_self :
    childOrInsert u next ((u, child) :: rest) = (child, (u, child) :: rest) := by
  simp [childOrInsert]

theorem childOrInsert_of_gt (h : u < token) :
    childOrInsert token next ((u, child) :: rest) =
      ((childOrInsert token next rest).1, (u, child) :: (childOrInsert token next rest).2) := by
  have hne : token ≠ u := fun he => String.lt_irrefl u (he ▸ h)
  simp [childOrInsert, String.lt_asymm h, hne]

end ChildOrInsert

namespace TrieBuilder

variable {nodes nodes' : Array BuildNode}

/-! ### Trees in an array -/

/-- Children in an array of nodes are the topmost nodes of a forest. The nodes of the forest stand
at the places `order`, told in the order of the layout. -/
inductive Spells (nodes : Array BuildNode) : List (String × Nat) → Forest → List Nat → Prop
  | nil : Spells nodes [] .nil []
  | cons {token : String} {place : Nat} {inner rest : List (String × Nat)} {markers : List Marker}
      {children siblings : Forest} {order order' : List Nat}
      (hnode : nodes[place]? = some ⟨inner, markers⟩)
      (hchildren : Spells nodes inner children order)
      (hsiblings : Spells nodes rest siblings order') :
      Spells nodes ((token, place) :: rest) (.node token markers children siblings)
        (place :: (order ++ order'))

/-- A place in an array of nodes is the root of a tree of keys, whose other nodes stand at the
places `order`. -/
def HoldsAt (nodes : Array BuildNode) (place : Nat) (t : KeyTree) (order : List Nat) : Prop :=
  ∃ children, nodes[place]? = some ⟨children, t.rootMarkers⟩ ∧ Spells nodes children t.forest order

section Spells

variable {cs : List (String × Nat)} {f : Forest} {order : List Nat}

/-- Nodes at other places do not count. -/
theorem Spells.congr (h : Spells nodes cs f order) (hsame : ∀ p ∈ order, nodes'[p]? = nodes[p]?) :
    Spells nodes' cs f order := by
  induction h with
  | nil => exact .nil
  | cons hnode _ _ ihc ihs =>
      simp only [List.forall_mem_cons, List.forall_mem_append] at hsame
      exact .cons (hsame.1.trans hnode) (ihc hsame.2.1) (ihs hsame.2.2)

/-- The nodes of a forest stand in the array. -/
theorem Spells.lt_size (h : Spells nodes cs f order) : ∀ p ∈ order, p < nodes.size := by
  induction h with
  | nil => simp
  | cons hnode _ _ ihc ihs =>
      simp only [List.forall_mem_cons, List.forall_mem_append]
      exact ⟨(Array.getElem?_eq_some_iff.mp hnode).1, ihc, ihs⟩

/-- Each node of a forest has a place. -/
theorem Spells.length_eq (h : Spells nodes cs f order) : order.length = f.size := by
  induction h with
  | nil => rfl
  | cons _ _ _ ihc ihs => simp [Forest.size, ihc, ihs]; omega

end Spells

section HoldsAt

variable {place : Nat} {t : KeyTree} {order : List Nat}

/-- A tree of keys is held as long as its nodes stay as they are. -/
theorem HoldsAt.congr (h : HoldsAt nodes place t order)
    (hsame : ∀ p ∈ place :: order, nodes'[p]? = nodes[p]?) : HoldsAt nodes' place t order := by
  obtain ⟨children, hnode, hspells⟩ := h
  rw [List.forall_mem_cons] at hsame
  exact ⟨children, hsame.1.trans hnode, hspells.congr hsame.2⟩

/-- A tree of keys is spelled like any other node with what is behind it. -/
theorem HoldsAt.spells (h : HoldsAt nodes place t order) (token : String) :
    Spells nodes [(token, place)] (.node token t.rootMarkers t.forest .nil) (place :: order) := by
  obtain ⟨children, hnode, hspells⟩ := h
  simpa using Spells.cons hnode hspells .nil

/-- The nodes of a tree of keys stand in the array. -/
theorem HoldsAt.lt_size (h : HoldsAt nodes place t order) :
    ∀ p ∈ place :: order, p < nodes.size := by
  obtain ⟨children, hnode, hspells⟩ := h
  exact List.forall_mem_cons.mpr ⟨(Array.getElem?_eq_some_iff.mp hnode).1, hspells.lt_size⟩

end HoldsAt

/-! ### Insertion -/

section Places

variable {child p : Nat} {before inner after : List Nat}

/-- The places of a child and of what is behind it may be told first. -/
theorem perm_opened (place child : Nat) (before inner after : List Nat) :
    (place :: (before ++ child :: (inner ++ after))).Perm
      ((child :: inner) ++ place :: (before ++ after)) := by
  refine .trans ?_ List.perm_middle.symm
  exact .cons place (List.perm_append_comm_assoc before (child :: inner) after)

/-- A place is one of a child and of what is behind it, or one beside them. -/
theorem mem_opened :
    p ∈ before ++ child :: (inner ++ after) ↔ p ∈ child :: inner ∨ p ∈ before ++ after := by
  simp only [List.mem_append, List.mem_cons]
  tauto

end Places

/-- Children are opened at a token: the child of the token, new or found, stands between the nodes
at the places `before` and those at the places `after`, and any tree may be put there. -/
structure Opens (nodes : Array BuildNode) (cs : List (String × Nat)) (f : Forest)
    (order : List Nat) (token : String) (next : Nat) (before after : List Nat) : Prop where
  opened : ((childOrInsert token next cs).1 = next ∧ f.behind token = .empty ∧
      order = before ++ after) ∨
    ∃ inner, HoldsAt nodes (childOrInsert token next cs).1 (f.behind token) inner ∧
      order = before ++ (childOrInsert token next cs).1 :: (inner ++ after)
  closes {nodes' : Array BuildNode} {t : KeyTree} {inner : List Nat}
    (hsame : ∀ p ∈ before ++ after, nodes'[p]? = nodes[p]?)
    (ht : HoldsAt nodes' (childOrInsert token next cs).1 t inner) :
    Spells nodes' (childOrInsert token next cs).2 (f.put token t)
      (before ++ (childOrInsert token next cs).1 :: (inner ++ after))

/-- **Children can be opened at each token.** -/
theorem Spells.exists_opens {cs : List (String × Nat)} {f : Forest} {order : List Nat}
    (h : Spells nodes cs f order) (token : String) (next : Nat) :
    ∃ before after, Opens nodes cs f order token next before after := by
  induction h with
  | nil =>
      refine ⟨[], [], .inl ⟨rfl, rfl, rfl⟩, fun {nodes' t inner} _ ht => ?_⟩
      obtain ⟨children, hnode, hspells⟩ := ht
      exact .cons hnode hspells .nil
  | @cons u place inner rest _ children siblings order order' hnode hchildren hsiblings _ ih =>
      obtain hlt | rfl | hgt : token < u ∨ token = u ∨ u < token :=
        Std.Trichotomous.rel_or_eq_or_rel_swap
      · refine ⟨[], place :: (order ++ order'), ?_, fun {nodes' t inner'} hsame ht => ?_⟩
        · exact .inl ⟨by rw [childOrInsert_of_lt hlt], Forest.behind_of_lt hlt, rfl⟩
        · rw [childOrInsert_of_lt hlt] at ht ⊢
          obtain ⟨children', hnode', hspells⟩ := ht
          rw [Forest.put_of_lt hlt]
          exact .cons hnode' hspells ((Spells.cons hnode hchildren hsiblings).congr hsame)
      · refine ⟨[], order', ?_, fun {nodes' t inner'} hsame ht => ?_⟩
        · rw [childOrInsert_self, Forest.behind_self]
          exact .inr ⟨order, ⟨inner, hnode, hchildren⟩, rfl⟩
        · rw [childOrInsert_self] at ht ⊢
          obtain ⟨children', hnode', hspells⟩ := ht
          rw [Forest.put_self]
          exact .cons hnode' hspells (hsiblings.congr hsame)
      · obtain ⟨before, after, hopens⟩ := ih
        refine ⟨place :: (order ++ before), after, ?_, fun {nodes' t inner'} hsame ht => ?_⟩
        · rw [childOrInsert_of_gt hgt, Forest.behind_of_gt hgt]
          exact hopens.opened.imp (fun ⟨hnext, hempty, ho⟩ => ⟨hnext, hempty, by simp [ho]⟩)
            fun ⟨inner', ht, ho⟩ => ⟨inner', ht, by simp [ho]⟩
        · rw [childOrInsert_of_gt hgt] at ht ⊢
          simp only [List.cons_append, List.append_assoc, List.forall_mem_cons,
            List.forall_mem_append] at hsame
          have hrest := hopens.closes (List.forall_mem_append.mpr hsame.2.2) ht
          rw [Forest.put_of_gt hgt]
          simpa using Spells.cons (hsame.1.trans hnode) (hchildren.congr hsame.2.1) hrest

/-- What an insertion at a place leaves: the tree there has the nodes it had and new ones, and
everything else stays as it is. -/
structure Grows (nodes nodes' : Array BuildNode) (place : Nat) (order order' : List Nat) :
    Prop where
  nodup : (place :: order').Nodup
  old_or_new : ∀ p ∈ order', p ∈ order ∨ nodes.size ≤ p
  size_le : nodes.size ≤ nodes'.size
  unchanged : ∀ p < nodes.size, p ∉ place :: order → nodes'[p]? = nodes[p]?

/-- What going down along a token leaves: the child holds the tree behind the token, and what is put
there is put behind the token. -/
structure Descends (nodes nodes' : Array BuildNode) (place : Nat) (t : KeyTree)
    (order : List Nat) (token : String) (child : Nat) (before inner after : List Nat) : Prop where
  holds : HoldsAt nodes' child (t.forest.behind token) inner
  grows : Grows nodes nodes' place order (before ++ child :: (inner ++ after))
  closes {nodes'' : Array BuildNode} {u : KeyTree} {inner' : List Nat}
    (hsame : ∀ p ∈ place :: (before ++ after), nodes''[p]? = nodes'[p]?)
    (hu : HoldsAt nodes'' child u inner') :
    HoldsAt nodes'' place { t with forest := t.forest.put token u }
      (before ++ child :: (inner' ++ after))

section Opens

variable {cs : List (String × Nat)} {f : Forest} {order : List Nat} {token : String} {next : Nat}
  {before after : List Nat}

/-- The nodes beside the child are nodes from before. -/
theorem Opens.subset (h : Opens nodes cs f order token next before after) :
    ∀ p ∈ before ++ after, p ∈ order := by
  obtain ⟨-, -, rfl⟩ | ⟨inner, -, rfl⟩ := h.opened
  · exact fun p hp => hp
  · exact fun p hp => mem_opened.mpr (.inr hp)

/-- Where a node has got the opened children and the others are as they were, a tree at the child is
put behind the token. -/
theorem Opens.holdsAt (h : Opens nodes cs f order token next before after) {place : Nat}
    {markers : List Marker}
    (hroot : nodes'[place]? = some ⟨(childOrInsert token next cs).2, markers⟩)
    (hother : ∀ p ∈ order, nodes'[p]? = nodes[p]?) {nodes'' : Array BuildNode} {u : KeyTree}
    {inner : List Nat} (hsame : ∀ p ∈ place :: (before ++ after), nodes''[p]? = nodes'[p]?)
    (hu : HoldsAt nodes'' (childOrInsert token next cs).1 u inner) :
    HoldsAt nodes'' place ⟨markers, f.put token u⟩
      (before ++ (childOrInsert token next cs).1 :: (inner ++ after)) := by
  rw [List.forall_mem_cons] at hsame
  exact ⟨_, hsame.1.trans hroot, h.closes
    (fun p hp => (hsame.2 p hp).trans (hother p (h.subset p hp))) hu⟩

end Opens

/-- What one step down does to the array: the node at the place gets its children, and behind all
nodes an empty one is added if the child is new. -/
theorem descend_eq {place : Nat} {cs : List (String × Nat)} {markers : List Marker}
    (hnode : nodes[place]? = some ⟨cs, markers⟩) (token : String) :
    ∃ nodes', descend nodes place token = some ((childOrInsert token nodes.size cs).1, nodes') ∧
      nodes.size ≤ nodes'.size ∧
      nodes'[place]? = some ⟨(childOrInsert token nodes.size cs).2, markers⟩ ∧
      (∀ p < nodes.size, p ≠ place → nodes'[p]? = nodes[p]?) ∧
      ((childOrInsert token nodes.size cs).1 = nodes.size → nodes'[nodes.size]? = some .empty) := by
  have hplace : place < nodes.size := (Array.getElem?_eq_some_iff.mp hnode).1
  rw [descend, hnode]
  refine ⟨_, rfl, ?_⟩
  split
  · refine ⟨by simp, ?_, fun p hp hne => ?_, fun _ => ?_⟩
    · rw [Array.getElem?_push_lt (by simpa using hplace)]
      simp
    · rw [Array.getElem?_push_lt (by simpa using hp), ← Array.getElem?_eq_getElem]
      simp [Ne.symm hne]
    · rw [Array.getElem?_push, if_pos (by simp)]
  · rename_i hold
    exact ⟨by simp, by simp [hplace], fun p _ hne => by simp [Ne.symm hne], fun h => absurd h hold⟩

/-- **One step down**: there is a child for the token, which holds the tree behind it. -/
theorem HoldsAt.descend {place : Nat} {t : KeyTree} {order : List Nat}
    (h : HoldsAt nodes place t order) (hnodup : (place :: order).Nodup) (token : String) :
    ∃ child nodes' before inner after,
      TrieBuilder.descend nodes place token = some (child, nodes') ∧
        Descends nodes nodes' place t order token child before inner after := by
  have hlt := h.lt_size
  obtain ⟨cs, hnode, hspells⟩ := h
  obtain ⟨before, after, hopens⟩ := hspells.exists_opens token nodes.size
  obtain ⟨nodes', hdescend, hsize, hroot, hsame, hnew⟩ := descend_eq hnode token
  have hother : ∀ p ∈ order, nodes'[p]? = nodes[p]? := fun p hp =>
    hsame p (hlt p (List.mem_cons_of_mem place hp)) fun he =>
      (List.nodup_cons.mp hnodup).1 (he ▸ hp)
  have hunchanged : ∀ p < nodes.size, p ∉ place :: order → nodes'[p]? = nodes[p]? :=
    fun p hp hnot => hsame p hp fun he => hnot (he ▸ List.mem_cons_self)
  obtain ⟨hnext, hempty, ho⟩ | ⟨inner, ht, ho⟩ := hopens.opened
  · -- the child is new: its tree has no keys, and no node stands at its place yet
    have hfresh : nodes.size ∉ place :: order := fun hm => Nat.lt_irrefl _ (hlt _ hm)
    refine ⟨_, nodes', before, [], after, hdescend, ?_, ?_, hopens.holdsAt hroot hother⟩
    · rw [hempty, hnext]
      exact ⟨[], hnew hnext, .nil⟩
    · rw [hnext]
      refine ⟨?_, fun p hp => ?_, hsize, hunchanged⟩
      · refine (perm_opened place nodes.size before [] after).nodup_iff.mpr ?_
        exact ho ▸ List.nodup_cons.mpr ⟨hfresh, hnodup⟩
      · obtain hchild | hbeside := mem_opened.mp hp
        · exact .inr (List.mem_singleton.mp hchild).ge
        · exact .inl (ho ▸ hbeside)
  · -- the child is old: its tree is where it was, as nothing but its parent has changed
    refine ⟨_, nodes', before, inner, after, hdescend, ht.congr ?_, ?_,
      hopens.holdsAt hroot hother⟩
    · exact fun p hp => hother p (ho ▸ mem_opened.mpr (.inl hp))
    · rw [← ho]
      exact ⟨hnodup, fun p hp => .inl hp, hsize, hunchanged⟩

section Descends

variable {nodes₁ nodes₂ : Array BuildNode} {place : Nat} {t : KeyTree} {order : List Nat}
  {token : String} {child : Nat} {before inner after inner' : List Nat}

/-- The places of the tree behind the token are none of the others. -/
theorem Descends.nodup_inner
    (h : Descends nodes nodes₁ place t order token child before inner after) :
    (child :: inner).Nodup ∧ (place :: (before ++ after)).Nodup ∧
      ∀ p ∈ child :: inner, ∀ q ∈ place :: (before ++ after), p ≠ q :=
  List.nodup_append.mp ((perm_opened place child before inner after).nodup_iff.mp h.grows.nodup)

/-- The place and the nodes beside the child stand in the array. -/
theorem Descends.lt_size_of_mem
    (h : Descends nodes nodes₁ place t order token child before inner after) {p : Nat}
    (hp : p ∈ place :: (before ++ after)) : p < nodes₁.size :=
  (h.closes (fun _ _ => rfl) h.holds).lt_size p
    (List.mem_cons.mpr ((List.mem_cons.mp hp).imp_right fun hp => mem_opened.mpr (.inr hp)))

/-- What grows behind the token grows behind the place. -/
theorem Descends.grows_of_grows
    (h : Descends nodes nodes₁ place t order token child before inner after)
    (hgrows : Grows nodes₁ nodes₂ child inner inner') :
    Grows nodes nodes₂ place order (before ++ child :: (inner' ++ after)) := by
  obtain ⟨-, houter, hapart⟩ := h.nodup_inner
  have hplaces {p : Nat} (hp : p ∈ child :: inner') : p ∈ child :: inner ∨ nodes₁.size ≤ p := by
    rcases List.mem_cons.mp hp with rfl | hp
    · exact .inl List.mem_cons_self
    · exact (hgrows.old_or_new p hp).imp_left (List.mem_cons_of_mem child)
  refine ⟨?_, fun p hp => ?_, h.grows.size_le.trans hgrows.size_le, fun p hp hnot => ?_⟩
  · refine (perm_opened place child before inner' after).nodup_iff.mpr
      (List.nodup_append.mpr ⟨hgrows.nodup, houter, fun p hp q hq => ?_⟩)
    obtain hp | hp := hplaces hp
    · exact hapart p hp q hq
    · have hlt : q < nodes₁.size := h.lt_size_of_mem hq
      omega
  · obtain hp | hp := mem_opened.mp hp
    · obtain hp | hp := hplaces hp
      · exact h.grows.old_or_new p (mem_opened.mpr (.inl hp))
      · exact .inr (h.grows.size_le.trans hp)
    · exact h.grows.old_or_new p (mem_opened.mpr (.inr hp))
  · rw [hgrows.unchanged p (hp.trans_le h.grows.size_le), h.grows.unchanged p hp hnot]
    intro hin
    obtain hold | hnew := h.grows.old_or_new p (mem_opened.mpr (.inl hin))
    · exact hnot (List.mem_cons_of_mem place hold)
    · omega

end Descends

/-- **An insertion in the array is one in the tree.** -/
theorem HoldsAt.insertFrom {place : Nat} {t : KeyTree} {order : List Nat}
    (h : HoldsAt nodes place t order) (hnodup : (place :: order).Nodup) (hs : t.forest.Sorted)
    (m : Marker) (key : List String) :
    ∃ nodes' order',
      TrieBuilder.insertFrom m nodes place key = some (t.holds key m.list, nodes') ∧
        HoldsAt nodes' place (t.insert key m) order' ∧ Grows nodes nodes' place order order' := by
  induction key generalizing nodes place t order with
  | nil =>
      have hlt := h.lt_size
      obtain ⟨cs, hnode, hspells⟩ := h
      rw [List.forall_mem_cons] at hlt
      have hne : ∀ p ∈ order, place ≠ p := fun p hp he => (List.nodup_cons.mp hnodup).1 (he ▸ hp)
      refine ⟨_, order, by rw [TrieBuilder.insertFrom, hnode]; rfl, ?_, hnodup,
        fun p hp => .inl hp, by simp, fun p _ hnot => ?_⟩
      · exact ⟨cs, by simp [hlt.1, KeyTree.insert], hspells.congr fun p hp => by simp [hne p hp]⟩
      · simp [Ne.symm (List.ne_of_not_mem_cons hnot)]
  | cons token rest ih =>
      obtain ⟨child, nodes₁, before, inner, after, hdescend, hstep⟩ := h.descend hnodup token
      obtain ⟨hinner, -, hapart⟩ := hstep.nodup_inner
      obtain ⟨nodes₂, inner', hinsert, hholds, hgrows⟩ :=
        ih hstep.holds hinner (hs.behind token)
      refine ⟨nodes₂, before ++ child :: (inner' ++ after), ?_, ?_, hstep.grows_of_grows hgrows⟩
      · rw [TrieBuilder.insertFrom, hdescend]
        simp only [hinsert, KeyTree.holds, hs.markersAt_behind]
        rfl
      · rw [KeyTree.insert, Forest.insert_eq_put]
        refine hstep.closes (fun p hp => ?_) hholds
        exact hgrows.unchanged p (hstep.lt_size_of_mem hp) fun hin => hapart p hin p hp rfl

end TrieBuilder

end AnnotatedText
