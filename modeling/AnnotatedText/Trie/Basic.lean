import AnnotatedText.Lexicon.Basic

/-!
# Tries of token sequences

A trie is an array of nodes, the root first. An edge is labelled with a token and names the place of
its child; a node where keys end carries one marker for each list that has the key. The nodes of a
trie may be shared or out of reach, as long as every child stands behind its parent, which
`Trie.verify` checks together with the order of edges and markers and the fit of the attributes.
-/

namespace AnnotatedText

/-- A list at a key: its place among the lists, and the attributes of its entry. -/
structure Marker where
  list : Nat
  attributes : List Scalar
  deriving DecidableEq

/-- An edge to the child at a place. -/
structure Edge where
  token : String
  child : Nat
  deriving DecidableEq

/-- A node: its edges in the order of their tokens and its markers in the order of their lists. -/
structure Node where
  edges : List Edge
  markers : List Marker
  deriving DecidableEq

/-- The nodes of a trie, the root first. -/
structure Trie where
  nodes : Array Node
  deriving DecidableEq

namespace Trie

/-- The number of nodes. -/
def size (t : Trie) : Nat := t.nodes.size

/-- The edges of the node at a place. -/
def edgesAt (t : Trie) (node : Nat) : List Edge :=
  match t.nodes[node]? with
  | some n => n.edges
  | none => []

/-- The markers of the node at a place. -/
def markersAt (t : Trie) (node : Nat) : List Marker :=
  match t.nodes[node]? with
  | some n => n.markers
  | none => []

/-- The child of a node along a token. -/
def child? (t : Trie) (node : Nat) (token : String) : Option Nat :=
  ((t.edgesAt node).find? (·.token == token)).map Edge.child

/-- The node at the end of a token sequence from a node on. -/
def findFrom (t : Trie) : Nat → List String → Option Nat
  | node, [] => some node
  | node, token :: rest =>
    match t.child? node token with
    | none => none
    | some next => t.findFrom next rest

/-- The node of a key. -/
def find? (t : Trie) (key : List String) : Option Nat := t.findFrom 0 key

/-- Whether keys end at a node. -/
def isTerminal (t : Trie) (node : Nat) : Bool := !(t.markersAt node).isEmpty

/-- A place where keys end on the way along a token sequence: how many tokens lead there. -/
structure Hit where
  depth : Nat
  node : Nat
  deriving DecidableEq

/-- The places where keys end along a token sequence, from a node at some depth on. -/
def hitsFrom (t : Trie) : Nat → Nat → List String → List Hit
  | _, _, [] => []
  | depth, node, token :: rest =>
    match t.child? node token with
    | none => []
    | some next =>
      let more := t.hitsFrom (depth + 1) next rest
      if t.isTerminal next then ⟨depth + 1, next⟩ :: more else more

/-- The nonempty keys that a token sequence begins with, the shortest first. -/
def hits (t : Trie) (tokens : List String) : List Hit := t.hitsFrom 0 0 tokens

/-- The number of markers. -/
def markerCount (t : Trie) : Nat := (t.nodes.toList.flatMap Node.markers).length

/-- The attributes of the marker of a list. -/
def attributesOf (markers : List Marker) (list : Nat) : Option (List Scalar) :=
  (markers.find? (·.list == list)).map Marker.attributes

end Trie

/-! ### Verification -/

/-- What is wrong with a trie. -/
inductive TrieFault where
  | noRoot
  | unsortedEdges (node : Nat)
  | danglingChild (node child : Nat)
  | unknownList (node list : Nat)
  | unorderedMarkers (node : Nat)
  | attributeCount (node list : Nat)
  | attributeKind (node list : Nat) (column : Column) (found : Kind)
  deriving DecidableEq

/-- The wording of the fault: what is wrong, and where. -/
def TrieFault.message : TrieFault → String
  | noRoot => "trie has no root node"
  | unsortedEdges node => s!"edges are not sorted: node {node}"
  | danglingChild node child => s!"dangling child offset: node {node} -> {child}"
  | unknownList node list => s!"marker refers to an unknown list: node {node}, list {list}"
  | unorderedMarkers node => s!"markers are not ordered by list: node {node}"
  | attributeCount node list => s!"attribute count mismatch: node {node}, list {list}"
  | attributeKind node list column found =>
    s!"attribute kind mismatch: node {node}, list {list}, column " ++ column.name ++
      ": expected " ++ column.kind.name ++ ", found " ++ found.name

namespace Trie

/-- Checks that the tokens of the edges increase. -/
def checkEdgeOrder (node : Nat) : List Edge → Except TrieFault Unit
  | a :: b :: rest =>
    if a.token < b.token then checkEdgeOrder node (b :: rest) else .error (.unsortedEdges node)
  | _ => .ok ()

/-- Checks that the children stand behind the node, and in the trie. -/
def checkChildren (count node : Nat) : List Edge → Except TrieFault Unit
  | [] => .ok ()
  | e :: rest =>
    if node < e.child ∧ e.child < count then checkChildren count node rest
    else .error (.danglingChild node e.child)

/-- Checks the kinds of attributes against the columns. -/
def checkKinds (node list : Nat) : List Scalar → List Column → Except TrieFault Unit
  | v :: values, column :: columns =>
    if v.kind = column.kind then checkKinds node list values columns
    else .error (.attributeKind node list column v.kind)
  | _, _ => .ok ()

/-- Checks a marker behind one of the list `previous?`. -/
def checkMarker (lists : List (List Column)) (node : Nat) (previous? : Option Nat) (m : Marker) :
    Except TrieFault Unit :=
  match lists[m.list]? with
  | none => .error (.unknownList node m.list)
  | some columns =>
    if previous?.any (m.list ≤ ·) then .error (.unorderedMarkers node)
    else if m.attributes.length ≠ columns.length then .error (.attributeCount node m.list)
    else checkKinds node m.list m.attributes columns

/-- Checks the markers of a node behind one of the list `previous?`. -/
def checkMarkers (lists : List (List Column)) (node : Nat) :
    Option Nat → List Marker → Except TrieFault Unit
  | _, [] => .ok ()
  | previous?, m :: rest =>
    match checkMarker lists node previous? m with
    | .error fault => .error fault
    | .ok _ => checkMarkers lists node (some m.list) rest

/-- Checks a node. -/
def checkNode (lists : List (List Column)) (count place : Nat) (n : Node) :
    Except TrieFault Unit :=
  match checkEdgeOrder place n.edges with
  | .error fault => .error fault
  | .ok _ =>
    match checkChildren count place n.edges with
    | .error fault => .error fault
    | .ok _ => checkMarkers lists place none n.markers

/-- Checks nodes of which the first stands at `place`. -/
def checkNodes (lists : List (List Column)) (count : Nat) :
    Nat → List Node → Except TrieFault Unit
  | _, [] => .ok ()
  | place, n :: rest =>
    match checkNode lists count place n with
    | .error fault => .error fault
    | .ok _ => checkNodes lists count (place + 1) rest

/-- Checks a trie whose markers belong to lists with the given columns. -/
def verify (t : Trie) (lists : List (List Column)) : Except TrieFault Unit :=
  if t.nodes.isEmpty then .error .noRoot
  else checkNodes lists t.size 0 t.nodes.toList

end Trie

end AnnotatedText
