import AnnotatedText.Proofs.Trie.Canonical
import AnnotatedText.Proofs.Trie.WellFormed

/-!
# Hits on demand

The hits of a token sequence need not be found at once. A **cursor** remembers how many tokens it
has gone along and the node it has come to, and each call goes on from there to the next node where
keys end. It has no node any more once a child is missing, and answers nothing then, as it does when
there are no more tokens. The child of a node is looked for by halving a window of its edges.

Nothing of this changes what is found. In a trie that is **searchable**, `Trie.IsSearchable`, that
is, whose edges increase and lead to nodes of the trie, a child is found in the window if and only
if it is found by going through the edges one by one. What a cursor has still to answer is a list of
hits, `Cursor.pending`, of which each call takes the first. So its answers are the hits and then
nothing, as often as it is called.

## Main results

* `Trie.search_eq_some_iff`: halving the window finds the edge with a token.
* `Trie.Cursor.next_eq`: what one call answers and leaves.
* `Trie.cursor_agrees`: the answers of a cursor, and how they are found one by one.
-/

namespace AnnotatedText

namespace Trie

/-! ### Searching by halves -/

/-- The edge with a token, looked for among the `size` edges from the place `base` on. The window is
halved until one edge is left, which is compared at last: a middle edge with the token itself ends
nothing before. -/
def searchWithin (edges : List Edge) (token : String) (base size : Nat) (hpos : 0 < size)
    (hin : base + size ≤ edges.length) : Option Edge :=
  if hsize : 1 < size then
    if token < edges[base + size / 2].token then
      searchWithin edges token base (size - size / 2) (by omega) (by omega)
    else searchWithin edges token (base + size / 2) (size - size / 2) (by omega) (by omega)
  else if edges[base].token = token then some edges[base]
  else none
termination_by size

/-- The edge with a token. -/
def search (edges : List Edge) (token : String) : Option Edge :=
  if hpos : 0 < edges.length then
    searchWithin edges token 0 edges.length hpos (Nat.zero_add _).le
  else none

variable {edges : List Edge} {token : String}

/-- What is found is an edge with the token, in whatever order the edges are. -/
theorem mem_of_searchWithin {base size : Nat} {hpos : 0 < size} {hin : base + size ≤ edges.length}
    {e : Edge} (h : searchWithin edges token base size hpos hin = some e) :
    e ∈ edges ∧ e.token = token := by
  fun_induction searchWithin edges token base size hpos hin with
  | case1 base size hpos hin hsize hless ih => exact ih h
  | case2 base size hpos hin hsize hless ih => exact ih h
  | case3 base size hpos hin hsize htoken =>
      obtain rfl := Option.some.inj h
      exact ⟨List.getElem_mem _, htoken⟩
  | case4 base size hpos hin hsize htoken => exact nomatch h

/-- Where edges increase, one that does not stand in front of another has no smaller token. -/
theorem not_lt_of_le (hsorted : edges.Pairwise fun a b => a.token < b.token) {i j : Nat}
    (hij : i ≤ j) (hj : j < edges.length) : ¬ edges[j].token < edges[i].token := by
  obtain rfl | hij := Nat.eq_or_lt_of_le hij
  · exact String.lt_irrefl _
  · exact String.lt_asymm (List.pairwise_iff_getElem.mp hsorted i j (Nat.lt_trans hij hj) hj hij)

/-- Among increasing edges, one that stands in the window is found: it is always in the half that is
kept. -/
theorem searchWithin_eq_some (hsorted : edges.Pairwise fun a b => a.token < b.token)
    {base size place : Nat} {hpos : 0 < size} {hin : base + size ≤ edges.length}
    (hplace : place < edges.length) (hfrom : base ≤ place) (hto : place < base + size) :
    searchWithin edges edges[place].token base size hpos hin = some edges[place] := by
  fun_induction searchWithin edges edges[place].token base size hpos hin with
  | case1 base size hpos hin hsize hmiddle ih =>
      have hfront : place < base + size / 2 :=
        Nat.lt_of_not_le fun hle => not_lt_of_le hsorted hle hplace hmiddle
      exact ih hfrom (by omega)
  | case2 base size hpos hin hsize hmiddle ih =>
      have hbehind : base + size / 2 ≤ place := by
        refine Nat.le_of_not_lt fun hlt => hmiddle ?_
        exact List.pairwise_iff_getElem.mp hsorted place (base + size / 2) hplace (by omega) hlt
      exact ih hbehind (by omega)
  | case3 base size hpos hin hsize htoken =>
      obtain rfl : place = base := by omega
      rfl
  | case4 base size hpos hin hsize htoken =>
      obtain rfl : place = base := by omega
      exact absurd rfl htoken

/-- **Among increasing edges, the one with a token is found**, if there is one. -/
theorem search_eq_some_iff (hsorted : edges.Pairwise fun a b => a.token < b.token) {e : Edge} :
    search edges token = some e ↔ e ∈ edges ∧ e.token = token := by
  rw [search]
  split
  · refine ⟨mem_of_searchWithin, ?_⟩
    rintro ⟨he, rfl⟩
    obtain ⟨place, hplace, rfl⟩ := List.mem_iff_getElem.mp he
    exact searchWithin_eq_some hsorted hplace (Nat.zero_le _) (by omega)
  · rename_i hempty
    obtain rfl : edges = [] := List.length_eq_zero_iff.mp (by omega)
    simp

/-! ### Searchable tries -/

/-- A trie **is searchable** if it has a root and the edges of every node increase and lead to nodes
of the trie. Children need not stand behind their parents. -/
structure IsSearchable (t : Trie) : Prop where
  has_root : 0 < t.size
  edges_increasing : ∀ place, (t.edgesAt place).Pairwise fun a b => a.token < b.token
  child_lt : ∀ place, ∀ e ∈ t.edgesAt place, e.child < t.size

/-- **What is verified is searchable.** -/
theorem isSearchable_of_verify {t : Trie} {lists : List (List Column)}
    (h : t.verify lists = .ok ()) : t.IsSearchable := by
  have hwf := verify_eq_ok_iff.mp h
  exact ⟨hwf.has_root, hwf.edges_sorted, fun _ _ he => hwf.child_lt he⟩

/-- **What is built is searchable.** -/
theorem isSearchable_gather (insertions : List Insertion) :
    (KeyTree.gather insertions).toTrie.IsSearchable where
  has_root := by
    rw [KeyTree.size_toTrie]
    omega
  edges_increasing := (KeyTree.enumerates_toTrie (KeyTree.sorted_gather insertions)).edges_increasing
  child_lt place e he := by
    unfold edgesAt at he
    split at he
    · rename_i n hn
      exact (KeyTree.child_bounds_toTrie hn he).2
    · exact absurd he List.not_mem_nil

/-- The child of a node along a token, searched for; undefined if there is no such node. -/
def childSearched (t : Trie) (node : Nat) (token : String) : Option (Option Nat) := do
  let n ← t.nodes[node]?
  return (search n.edges token).map Edge.child

/-- The node at the end of a token sequence from a node on, by searches. -/
def findSearched (t : Trie) : Nat → List String → Option (Option Nat)
  | node, [] => some (some node)
  | node, token :: rest => do
    match ← t.childSearched node token with
    | none => return none
    | some next => t.findSearched next rest

variable {t : Trie}

namespace IsSearchable

/-- Where edges increase, the child along a token is that of the edge with the token. -/
theorem child?_eq_some_iff (h : t.IsSearchable) {node child : Nat} :
    t.child? node token = some child ↔ ⟨token, child⟩ ∈ t.edgesAt node :=
  Trie.child?_eq_some_iff (e := ⟨token, child⟩) (h.edges_increasing node)

/-- The child of a node stands in the trie. -/
theorem child?_lt (h : t.IsSearchable) {node next : Nat} (hc : t.child? node token = some next) :
    next < t.size :=
  h.child_lt node _ (h.child?_eq_some_iff.mp hc)

/-- **The child that is searched for is the child**, and no access is out of range. -/
theorem childSearched_eq (h : t.IsSearchable) {node : Nat} (hnode : node < t.size)
    (token : String) : t.childSearched node token = some (t.child? node token) := by
  obtain ⟨n, hn⟩ := exists_node_of_lt hnode
  have hsorted := h.edges_increasing node
  rw [edgesAt_of_getElem? hn] at hsorted
  have hsearch : search n.edges token = n.edges.find? (·.token == token) := by
    refine Option.ext fun e => ?_
    rw [search_eq_some_iff hsorted]
    constructor
    · rintro ⟨he, rfl⟩
      exact find?_of_mem_increasing Edge.token hsorted he
    · intro hfind
      exact ⟨List.mem_of_find?_eq_some hfind, by simpa using List.find?_some hfind⟩
  simp [childSearched, child?, hn, hsearch, edgesAt_of_getElem? hn]

/-- **So is the node of a key.** -/
theorem findSearched_eq (h : t.IsSearchable) {node : Nat} (hnode : node < t.size)
    (key : List String) : t.findSearched node key = some (t.findFrom node key) := by
  induction key generalizing node with
  | nil => rfl
  | cons token rest ih =>
      rw [findSearched, findFrom, h.childSearched_eq hnode]
      cases hc : t.child? node token with
      | none => rfl
      | some next => exact ih (h.child?_lt hc)

end IsSearchable

/-! ### Cursors -/

/-- A **cursor** on the way along a token sequence: how many tokens it has gone along, and the node
that it has come to, unless a child was missing. -/
structure Cursor where
  depth : Nat
  node? : Option Nat
  deriving DecidableEq

namespace Cursor

/-- The cursor before the first call. -/
def start : Cursor := ⟨0, some 0⟩

/-- Goes along the tokens to the next node where keys end: what is answered, and the cursor
afterwards; undefined if an access is out of range. -/
def next (t : Trie) (tokens : List String) (c : Cursor) : Option (Option Hit × Cursor) :=
  if hdepth : c.depth < tokens.length then
    match c.node? with
    | none => some (none, c)
    | some node => do
      match ← t.childSearched node tokens[c.depth] with
      | none => return (none, ⟨c.depth, none⟩)
      | some child =>
        let n ← t.nodes[child]?
        if n.markers.isEmpty then next t tokens ⟨c.depth + 1, some child⟩
        else return (some ⟨c.depth + 1, child⟩, ⟨c.depth + 1, some child⟩)
  else some (none, c)
termination_by tokens.length - c.depth

/-- The answers to a number of calls. -/
def answers (t : Trie) (tokens : List String) : Nat → Cursor → Option (List (Option Hit))
  | 0, _ => some []
  | n + 1, c => do
    let (answer, c) ← c.next t tokens
    return answer :: (← answers t tokens n c)

/-- The hits that a cursor **has still to answer**. -/
def pending (t : Trie) (tokens : List String) (c : Cursor) : List Hit :=
  match c.node? with
  | none => []
  | some node => t.hitsFrom c.depth node (tokens.drop c.depth)

/-- A cursor **is inside** a trie if its node is one of the trie. -/
def Inside (t : Trie) (c : Cursor) : Prop := ∀ node ∈ c.node?, node < t.size

variable {tokens : List String}

/-- One round of a call, in which no access is out of range. -/
theorem next_of_lt (h : t.IsSearchable) {depth node : Nat} (hdepth : depth < tokens.length)
    (hnode : node < t.size) :
    next t tokens ⟨depth, some node⟩ =
      match t.child? node tokens[depth] with
      | none => some (none, ⟨depth, none⟩)
      | some child =>
        if t.isTerminal child then some (some ⟨depth + 1, child⟩, ⟨depth + 1, some child⟩)
        else next t tokens ⟨depth + 1, some child⟩ := by
  rw [next, dif_pos hdepth]
  simp only [h.childSearched_eq hnode]
  cases hchild : t.child? node tokens[depth] with
  | none => rfl
  | some child =>
      obtain ⟨n, hn⟩ := exists_node_of_lt (h.child?_lt hchild)
      simp only [isTerminal, markersAt_of_getElem? hn, hn, Option.bind_eq_bind, Option.bind_some]
      cases n.markers.isEmpty <;> rfl

/-- Nothing is pending behind the tokens. -/
theorem pending_eq_nil {c : Cursor} (h : tokens.length ≤ c.depth) : c.pending t tokens = [] := by
  rw [pending, List.drop_of_length_le h]
  cases c.node? <;> rfl

/-- **One call answers the first of the hits** still to be answered and leaves the others. -/
theorem next_eq (h : t.IsSearchable) {c : Cursor} (hc : c.Inside t) :
    ∃ c' : Cursor, c.next t tokens = some ((c.pending t tokens).head?, c') ∧
      c'.pending t tokens = (c.pending t tokens).tail ∧ c'.Inside t := by
  obtain ⟨depth, node?⟩ := c
  -- on the number of tokens that are left, as a call passes over nodes where no keys end
  induction hleft : tokens.length - depth generalizing depth node? with
  | zero =>
      have hend : ¬ depth < tokens.length := by omega
      have hnone : pending t tokens ⟨depth, node?⟩ = [] := pending_eq_nil (Nat.le_of_not_lt hend)
      refine ⟨⟨depth, node?⟩, ?_, by rw [hnone, List.tail_nil], hc⟩
      rw [next, dif_neg hend, hnone, List.head?_nil]
  | succ left ih =>
      have hdepth : depth < tokens.length := by omega
      cases node? with
      | none =>
          refine ⟨⟨depth, none⟩, ?_, rfl, hc⟩
          rw [next, dif_pos hdepth]
          rfl
      | some node =>
          have hdrop : tokens.drop depth = tokens[depth] :: tokens.drop (depth + 1) :=
            List.drop_eq_getElem_cons hdepth
          rw [next_of_lt h hdepth (hc node rfl), pending]
          simp only [hdrop, hitsFrom]
          cases hchild : t.child? node tokens[depth] with
          | none =>
              refine ⟨⟨depth, none⟩, rfl, rfl, ?_⟩
              rintro _ ⟨⟩
          | some child =>
              have hinside : Inside t ⟨depth + 1, some child⟩ := by
                rintro _ ⟨⟩
                exact h.child?_lt hchild
              by_cases hterminal : t.isTerminal child = true
              · simp only [hterminal, if_true]
                exact ⟨_, rfl, rfl, hinside⟩
              · simp only [hterminal]
                exact ih (depth + 1) (some child) hinside (by omega)

/-- **The answers are the hits that are still to be answered, and then nothing**, for ever. -/
theorem answers_eq (h : t.IsSearchable) (n : Nat) {c : Cursor} (hc : c.Inside t) :
    answers t tokens n c = some (((c.pending t tokens).map some).take n ++
      List.replicate (n - (c.pending t tokens).length) none) := by
  induction n generalizing c with
  | zero => simp [answers]
  | succ n ih =>
      obtain ⟨c', hnext, hpending, hc'⟩ := @next_eq t tokens h c hc
      have hrest := ih hc'
      rw [hpending] at hrest
      rw [answers, hnext]
      simp only [Option.bind_eq_bind, Option.bind_some, hrest]
      cases c.pending t tokens with
      | nil => simp [List.replicate_succ]
      | cons hit rest => simp

end Cursor

/-- **A cursor answers what searching for each beginning finds.** Tries that are verified or built
are searchable. In a searchable trie, the child that is searched for along a token is the one to
which an edge with the token leads, and there is none only if there is no such edge. For every token
sequence, the answers of a cursor are its hits, the shortest first, and then nothing as often as it
is called. These are the places where keys end that are found from the root on by the tokens up to
there. -/
theorem cursor_agrees :
    (∀ (t : Trie) (lists : List (List Column)), t.verify lists = .ok () → t.IsSearchable) ∧
    (∀ insertions, (KeyTree.gather insertions).toTrie.IsSearchable) ∧
    ∀ t : Trie, t.IsSearchable →
      (∀ node < t.size, ∀ token, ∃ found?, t.childSearched node token = some found? ∧
        ∀ child, found? = some child ↔ ⟨token, child⟩ ∈ t.edgesAt node) ∧
      ∀ tokens : List String,
        (∀ n, Cursor.start.answers t tokens n = some (((t.hits tokens).map some).take n ++
          List.replicate (n - (t.hits tokens).length) none)) ∧
        (t.hits tokens).Pairwise (fun a b => a.depth < b.depth) ∧
        ∀ hit : Hit, hit ∈ t.hits tokens ↔ 1 ≤ hit.depth ∧ hit.depth ≤ tokens.length ∧
          t.findSearched 0 (tokens.take hit.depth) = some (some hit.node) ∧
          t.isTerminal hit.node = true := by
  refine ⟨fun t lists => isSearchable_of_verify, isSearchable_gather, fun t ht => ⟨?_, ?_⟩⟩
  · intro node hnode token
    exact ⟨_, ht.childSearched_eq hnode token, fun child => ht.child?_eq_some_iff⟩
  · intro tokens
    have hstart : Cursor.start.Inside t := by
      rintro _ ⟨⟩
      exact ht.has_root
    refine ⟨fun n => Cursor.answers_eq ht n hstart, hitsFrom_sorted 0 0 tokens, fun hit => ?_⟩
    rw [mem_hits_iff, ht.findSearched_eq ht.has_root, Option.some.injEq, find?]

end Trie

/-- Keys of which each begins the next, beside others that begin with other tokens. -/
def Sample.nested : Trie :=
  (KeyTree.gather [⟨["Peter"], ⟨0, []⟩⟩, ⟨["Peter", "Kluegl"], ⟨0, []⟩⟩,
    ⟨["Peter", "Kluegl", ":", "Ruta"], ⟨0, []⟩⟩, ⟨["Paul"], ⟨0, []⟩⟩, ⟨["Mary"], ⟨0, []⟩⟩]).toTrie

/-- The answers on the way along the longest key and beyond it, and those on a way that leaves the
trie between two keys. -/
theorem Trie.cursor_agrees_nested :
    Sample.nested.IsSearchable ∧
    Cursor.start.answers Sample.nested ["Peter", "Kluegl", ":", "Ruta", "x"] 5 =
      some [some ⟨1, 3⟩, some ⟨2, 4⟩, some ⟨4, 6⟩, none, none] ∧
    Cursor.start.answers Sample.nested ["Peter", "Kluegl", ":", "x", "Peter"] 4 =
      some [some ⟨1, 3⟩, some ⟨2, 4⟩, none, none] := by
  have hsearchable : Sample.nested.IsSearchable := cursor_agrees.2.1 _
  obtain ⟨-, hanswers⟩ := cursor_agrees.2.2 Sample.nested hsearchable
  refine ⟨hsearchable, ((hanswers _).1 5).trans ?_, ((hanswers _).1 4).trans ?_⟩
  · decide +kernel
  · decide +kernel

end AnnotatedText
