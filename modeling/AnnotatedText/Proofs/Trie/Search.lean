import AnnotatedText.Trie.Basic

/-!
# Keys and prefixes

`Trie.markers` gives a trie its meaning as a map from keys to markers. This module ties the walk
along a token sequence, `Trie.hits`, to that meaning: the hits are exactly the nonempty beginnings
of the sequence that lead to a node with markers, each once, the shortest first. No well-formedness
is needed for it; nodes may be shared and the order of edges is of no account.

## Main results

* `Trie.mem_hitsFrom_iff`: what the hits of a token sequence are.
* `Trie.hitsFrom_sorted`: their depths increase strictly.
-/

namespace AnnotatedText.Trie

/-- The markers of a key, read from a node on. -/
def markersFrom (t : Trie) (node : Nat) (key : List String) : List Marker :=
  match t.findFrom node key with
  | some last => t.markersAt last
  | none => []

/-- The markers of a key. -/
def markers (t : Trie) (key : List String) : List Marker := t.markersFrom 0 key

variable {t : Trie}

/-- The edges at the place of a node are its edges. -/
theorem edgesAt_of_getElem? {node : Nat} {n : Node} (h : t.nodes[node]? = some n) :
    t.edgesAt node = n.edges := by
  rw [edgesAt, h]

/-- The markers at the place of a node are its markers. -/
theorem markersAt_of_getElem? {node : Nat} {n : Node} (h : t.nodes[node]? = some n) :
    t.markersAt node = n.markers := by
  rw [markersAt, h]

/-- There is a node at each place in the trie. -/
theorem exists_node_of_lt {node : Nat} (h : node < t.size) : ∃ n, t.nodes[node]? = some n :=
  ⟨t.nodes[node], Array.getElem?_eq_getElem h⟩

@[simp] theorem findFrom_nil (node : Nat) : t.findFrom node [] = some node := rfl

/-- A key is followed along its first token and then on. -/
theorem findFrom_cons (node : Nat) (token : String) (rest : List String) :
    t.findFrom node (token :: rest) = (t.child? node token).bind (t.findFrom · rest) := by
  rw [findFrom]
  cases t.child? node token <;> rfl

@[simp] theorem markersFrom_nil (node : Nat) : t.markersFrom node [] = t.markersAt node := rfl

/-- Markers are found along the first token, and none where it leads nowhere. -/
theorem markersFrom_cons (node : Nat) (token : String) (rest : List String) :
    t.markersFrom node (token :: rest) =
      match t.child? node token with
      | some next => t.markersFrom next rest
      | none => [] := by
  rw [markersFrom, findFrom_cons]
  cases t.child? node token <;> rfl

/-- The markers of a key are those at its node. -/
theorem markersFrom_of_findFrom {node last : Nat} {key : List String}
    (h : t.findFrom node key = some last) : t.markersFrom node key = t.markersAt last := by
  rw [markersFrom, h]

/-- A key with markers leads to a node. -/
theorem exists_of_mem_markersFrom {node : Nat} {key : List String} {m : Marker}
    (h : m ∈ t.markersFrom node key) :
    ∃ last, t.findFrom node key = some last ∧ m ∈ t.markersAt last := by
  cases hf : t.findFrom node key with
  | none => simp [markersFrom, hf] at h
  | some last => exact ⟨last, rfl, markersFrom_of_findFrom hf ▸ h⟩

/-- Keys end at a node if and only if it has a marker. -/
theorem isTerminal_iff {node : Nat} : t.isTerminal node = true ↔ ∃ m, m ∈ t.markersAt node := by
  cases h : t.markersAt node with
  | nil => simp [isTerminal, h]
  | cons m rest => simp [isTerminal, h]

/-! ### Hits -/

/-- **The hits of a token sequence** are its nonempty beginnings at whose end there are markers. -/
theorem mem_hitsFrom_iff {depth node : Nat} {tokens : List String} {h : Hit} :
    h ∈ t.hitsFrom depth node tokens ↔
      ∃ n, 1 ≤ n ∧ n ≤ tokens.length ∧ h.depth = depth + n ∧
        t.findFrom node (tokens.take n) = some h.node ∧ t.isTerminal h.node = true := by
  induction tokens generalizing depth node with
  | nil =>
      simp only [hitsFrom, List.not_mem_nil, false_iff]
      rintro ⟨n, hpos, hle, -⟩
      simp only [List.length_nil] at hle
      omega
  | cons token rest ih =>
      cases hc : t.child? node token with
      | none =>
          simp only [hitsFrom, hc, List.not_mem_nil, false_iff]
          rintro ⟨n, hpos, -, -, hfind, -⟩
          obtain ⟨n, rfl⟩ : ∃ j, n = j + 1 := ⟨n - 1, by omega⟩
          simp [findFrom_cons, hc] at hfind
      | some next =>
          -- a beginning of the whole sequence is the first token or goes on in the rest
          have hsplit : (∃ n, 1 ≤ n ∧ n ≤ (token :: rest).length ∧ h.depth = depth + n ∧
              t.findFrom node ((token :: rest).take n) = some h.node ∧
                t.isTerminal h.node = true) ↔
              (h = ⟨depth + 1, next⟩ ∧ t.isTerminal next = true) ∨
                h ∈ t.hitsFrom (depth + 1) next rest := by
            rw [ih]
            constructor
            · rintro ⟨n, hpos, hle, hd, hfind, hterm⟩
              obtain ⟨n, rfl⟩ : ∃ j, n = j + 1 := ⟨n - 1, by omega⟩
              simp only [List.take_succ_cons, findFrom_cons, hc, Option.bind_some] at hfind
              rcases Nat.eq_zero_or_pos n with rfl | hn
              · obtain rfl : next = h.node := by simpa using hfind
                exact Or.inl ⟨by rw [← hd], hterm⟩
              · refine Or.inr ⟨n, hn, ?_, by omega, hfind, hterm⟩
                simpa using hle
            · rintro (⟨rfl, hterm⟩ | ⟨n, hpos, hle, hd, hfind, hterm⟩)
              · exact ⟨1, by omega, by simp, rfl, by simp [findFrom_cons, hc], hterm⟩
              · refine ⟨n + 1, by omega, by simpa using hle, by omega, ?_, hterm⟩
                simpa [findFrom_cons, hc] using hfind
          rw [hsplit]
          by_cases hterm : t.isTerminal next = true
          · simp [hitsFrom, hc, hterm]
          · simp [hitsFrom, hc, hterm]

/-- A hit lies behind the depth at which the walk begins. -/
theorem lt_depth_of_mem_hitsFrom {depth node : Nat} {tokens : List String} {h : Hit}
    (hh : h ∈ t.hitsFrom depth node tokens) : depth < h.depth := by
  obtain ⟨n, hpos, -, hd, -⟩ := mem_hitsFrom_iff.mp hh
  omega

/-- **The shortest hit comes first.** -/
theorem hitsFrom_sorted (depth node : Nat) (tokens : List String) :
    (t.hitsFrom depth node tokens).Pairwise fun a b => a.depth < b.depth := by
  induction tokens generalizing depth node with
  | nil => exact List.Pairwise.nil
  | cons token rest ih =>
      cases hc : t.child? node token with
      | none => simp [hitsFrom, hc]
      | some next =>
          by_cases hterm : t.isTerminal next = true
          · simp only [hitsFrom, hc, hterm, if_true, List.pairwise_cons]
            exact ⟨fun h hh => lt_depth_of_mem_hitsFrom hh, ih (depth + 1) next⟩
          · simp only [hitsFrom, hc, hterm]
            exact ih (depth + 1) next

/-- The hits of a token sequence, from the root on. -/
theorem mem_hits_iff {tokens : List String} {h : Hit} :
    h ∈ t.hits tokens ↔ 1 ≤ h.depth ∧ h.depth ≤ tokens.length ∧
      t.find? (tokens.take h.depth) = some h.node ∧ t.isTerminal h.node = true := by
  rw [hits, mem_hitsFrom_iff]
  constructor
  · rintro ⟨n, hpos, hle, hd, hfind, hterm⟩
    obtain rfl : n = h.depth := by omega
    exact ⟨hpos, hle, hfind, hterm⟩
  · rintro ⟨hpos, hle, hfind, hterm⟩
    exact ⟨h.depth, hpos, hle, by omega, hfind, hterm⟩

/-- The markers at a hit are those of the tokens that lead there. -/
theorem markers_take_of_mem_hits {tokens : List String} {h : Hit} (hh : h ∈ t.hits tokens) :
    t.markers (tokens.take h.depth) = t.markersAt h.node :=
  markersFrom_of_findFrom (mem_hits_iff.mp hh).2.2.1

end AnnotatedText.Trie
