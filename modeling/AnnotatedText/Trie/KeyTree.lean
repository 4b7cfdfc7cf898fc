import AnnotatedText.Trie.Basic

/-!
# Trees of keys

Keys are gathered in a tree and then laid out as a trie. The tree is a forest of nodes in which each
node has its first child and its next sibling; siblings stand in the order of their tokens, markers
in the order of their lists. Laying it out numbers the nodes in the order in which a walk through
the forest comes upon them, so every child stands behind its parent and the children of a node stand
in the order of their tokens. This is what a `TrieBuilder` does in its array of nodes.
-/

namespace AnnotatedText

/-- Nodes with their tokens and markers, beside each other and below each other. -/
inductive Forest where
  | nil
  | node (token : String) (markers : List Marker) (children siblings : Forest)
  deriving DecidableEq

/-- Puts a marker at its place among others in order, in the stead of one of its list. -/
def putMarker (m : Marker) : List Marker → List Marker
  | [] => [m]
  | n :: rest =>
    if m.list < n.list then m :: n :: rest
    else if m.list = n.list then m :: rest
    else n :: putMarker m rest

namespace Forest

/-- A single path for the key `token :: rest` in front of other nodes. -/
def path (m : Marker) (token : String) : List String → Forest → Forest
  | [], siblings => node token [m] nil siblings
  | next :: rest, siblings => node token [] (path m next rest nil) siblings

/-- Adds a marker at the key `token :: rest`. -/
def insert (m : Marker) : Forest → String → List String → Forest
  | nil, token, rest => path m token rest nil
  | node u markers children siblings, token, rest =>
    if token < u then path m token rest (node u markers children siblings)
    else if token = u then
      match rest with
      | [] => node u (putMarker m markers) children siblings
      | next :: rest' => node u markers (children.insert m next rest') siblings
    else node u markers children (siblings.insert m token rest)

/-- The markers at the key `token :: rest`. -/
def markersAt : Forest → String → List String → List Marker
  | nil, _, _ => []
  | node u markers children siblings, token, rest =>
    if token = u then
      match rest with
      | [] => markers
      | next :: rest' => children.markersAt next rest'
    else siblings.markersAt token rest

/-- The number of nodes. -/
def size : Forest → Nat
  | nil => 0
  | node _ _ children siblings => 1 + children.size + siblings.size

/-- The edges to the topmost nodes, if the forest is laid out from the place `base` on. -/
def edges : Nat → Forest → List Edge
  | _, nil => []
  | base, node token _ children siblings =>
    ⟨token, base⟩ :: edges (base + 1 + children.size) siblings

/-- The nodes of the forest laid out from the place `base` on. -/
def layout : Nat → Forest → List Node
  | _, nil => []
  | base, node _ markers children siblings =>
    ⟨edges (base + 1) children, markers⟩ ::
      (layout (base + 1) children ++ layout (base + 1 + children.size) siblings)

/-- The layout has a place for each node. -/
@[simp] theorem length_layout (f : Forest) (base : Nat) : (f.layout base).length = f.size := by
  induction f generalizing base with
  | nil => rfl
  | node token markers children siblings ihc ihs => simp [layout, size, ihc, ihs]; omega

end Forest

/-- The keys gathered so far: the markers of the empty key, and the forest of the others. -/
structure KeyTree where
  rootMarkers : List Marker
  forest : Forest
  deriving DecidableEq

namespace KeyTree

/-- The tree without keys. -/
def empty : KeyTree := ⟨[], .nil⟩

/-- The markers at a key. -/
def markersAt (t : KeyTree) : List String → List Marker
  | [] => t.rootMarkers
  | token :: rest => t.forest.markersAt token rest

/-- Whether a list has a marker at a key. -/
def holds (t : KeyTree) (key : List String) (list : Nat) : Bool :=
  (t.markersAt key).any (·.list == list)

/-- Adds a marker at a key, in the stead of one of its list. -/
def insert (t : KeyTree) (key : List String) (m : Marker) : KeyTree :=
  match key with
  | [] => { t with rootMarkers := putMarker m t.rootMarkers }
  | token :: rest => { t with forest := t.forest.insert m token rest }

/-- The tree laid out as a trie. -/
def toTrie (t : KeyTree) : Trie :=
  ⟨(⟨t.forest.edges 1, t.rootMarkers⟩ :: t.forest.layout 1).toArray⟩

end KeyTree

end AnnotatedText
