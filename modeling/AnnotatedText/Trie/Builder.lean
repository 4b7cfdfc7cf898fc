import AnnotatedText.Place
import AnnotatedText.Trie.KeyTree

/-!
# Building tries

A trie is built in an array of nodes, the root first, in which a node stands where the array ended
when it was needed. A node has its children as places in the array, in the order of their tokens.
When all keys are there, a walk with a stack finds the order in which a node comes in front of its
children and these in front of its later siblings, a table takes down the new place of each node,
and the nodes are moved out of the array in the new order.

Every access to the array and to the table is checked, and the walk has as many rounds as there are
nodes: `none` stands for an access outside or a walk that does not end.
-/

namespace AnnotatedText

/-- A node to be: its children by their tokens, and its markers in the order of their lists. -/
structure BuildNode where
  children : List (String × Nat)
  markers : List Marker
  deriving DecidableEq

/-- The node without children and markers. -/
def BuildNode.empty : BuildNode := ⟨[], []⟩

/-- The child for a token, which becomes `next` where there is none, and the children with it. -/
def childOrInsert (token : String) (next : Nat) : List (String × Nat) → Nat × List (String × Nat)
  | [] => (next, [(token, next)])
  | (u, child) :: rest =>
    if token < u then (next, (token, next) :: (u, child) :: rest)
    else if token = u then (child, (u, child) :: rest)
    else
      let (found, rest') := childOrInsert token next rest
      (found, (u, child) :: rest')

/-- The nodes of a trie that is being built, the root first. -/
structure TrieBuilder where
  nodes : Array BuildNode
  deriving DecidableEq

namespace TrieBuilder

/-- A builder with nothing but the root. -/
def empty : TrieBuilder := ⟨#[.empty]⟩

/-! ### Insertion -/

/-- Goes from a node to its child for a token, for which a node is added if there is none. -/
def descend (nodes : Array BuildNode) (place : Nat) (token : String) :
    Option (Nat × Array BuildNode) :=
  match nodes[place]? with
  | none => none
  | some node =>
    let (child, children) := childOrInsert token nodes.size node.children
    let nodes' := nodes.setIfInBounds place { node with children := children }
    some (child, if child = nodes.size then nodes'.push .empty else nodes')

/-- Puts a marker at a key, from the node at a place on, and tells whether it replaces one. -/
def insertFrom (m : Marker) :
    Array BuildNode → Nat → List String → Option (Bool × Array BuildNode)
  | nodes, place, [] =>
    match nodes[place]? with
    | none => none
    | some node =>
      some (node.markers.any (·.list == m.list),
        nodes.setIfInBounds place { node with markers := putMarker m node.markers })
  | nodes, place, token :: rest =>
    match descend nodes place token with
    | none => none
    | some (child, nodes') => insertFrom m nodes' child rest

/-- Puts a marker at a key, in the stead of one of its list, and tells whether there was one. -/
def insert (b : TrieBuilder) (key : List String) (m : Marker) : Option (Bool × TrieBuilder) :=
  match insertFrom m b.nodes 0 key with
  | none => none
  | some (replaced, nodes) => some (replaced, ⟨nodes⟩)

/-! ### Building -/

/-- The places that a walk comes upon which has those on the stack before it, the next one last. -/
def walk (nodes : Array BuildNode) : Nat → List Nat → Option (List Nat)
  | rounds, stack =>
    match stack.getLast? with
    | none => some []
    | some place =>
      match rounds, nodes[place]? with
      | rounds + 1, some node =>
        (walk nodes rounds (stack.dropLast ++ (node.children.map Prod.snd).reverse)).map (place :: ·)
      | _, _ => none

/-- Takes down new places, from `new` on, for the nodes at the given ones. -/
def number (new : Nat) : Array Nat → List Nat → Option (Except PlaceError (Array Nat))
  | ids, [] => some (.ok ids)
  | ids, place :: rest =>
    if placeLimit ≤ new then some (.error .noPlace)
    else if place < ids.size then number (new + 1) (ids.setIfInBounds place new) rest
    else none

/-- The edges to children, told by their new places. -/
def edgesTo (ids : Array Nat) : List (String × Nat) → Option (List Edge)
  | [] => some []
  | (token, child) :: rest =>
    match ids[child]? with
    | none => none
    | some new => (edgesTo ids rest).map (⟨token, new⟩ :: ·)

/-- What the node at a place is in the trie. -/
def nodeAt (ids : Array Nat) (nodes : Array BuildNode) (place : Nat) : Option Node :=
  match nodes[place]? with
  | none => none
  | some node => (edgesTo ids node.children).map (⟨·, node.markers⟩)

/-- Moves the nodes at the given places out of the array. -/
def takeNodes (ids : Array Nat) : Array BuildNode → List Nat → Option (List Node)
  | _, [] => some []
  | nodes, place :: rest =>
    match nodeAt ids nodes place with
    | none => none
    | some node => (takeNodes ids (nodes.setIfInBounds place .empty) rest).map (node :: ·)

/-- The trie of the nodes, if there is a place for each. -/
def build (b : TrieBuilder) : Option (Except PlaceError Trie) :=
  match walk b.nodes b.nodes.size [0] with
  | none => none
  | some order =>
    match number 0 (Array.replicate b.nodes.size 0) order with
    | none => none
    | some (.error e) => some (.error e)
    | some (.ok ids) => (takeNodes ids b.nodes order).map fun nodes => .ok ⟨nodes.toArray⟩

end TrieBuilder

end AnnotatedText
