import AnnotatedText.Matching.Scan
import AnnotatedText.Proofs.Trie.Insertion
import AnnotatedText.Proofs.Trie.Search

/-!
# The longest key of a list

At a token a scan notes the keys that begin there, the shortest first, each in the slots of the
lists that have it. In the end the slot of a list has its longest key, `getElem?_longest`; which one
that is depends on what the trie has at the beginnings of the token sequence and on nothing else,
`longest?_hits_eq_some_iff`. Keys of other lists that are shorter, longer or the same leave the slot
as it is.

## Main results

* `Scan.getElem?_longest`: a slot has the longest key of its list.
* `Scan.longest?_hits_eq_some_iff`, `Scan.longest?_hits_eq_none_iff`: what the longest key is.
-/

namespace AnnotatedText

namespace Scan

variable {t : Trie}

/-! ### Slots -/

/-- The **longest** of the hits at which a list has a key, where the shortest hit comes first. -/
def longest? (t : Trie) (hits : List Trie.Hit) (list : Nat) : Option Trie.Hit :=
  hits.reverse.find? fun h => (Trie.attributesOf (t.markersAt h.node) list).isSome

/-- Later hits are longer, so a hit counts only if no later one has a marker of the list. -/
theorem longest?_cons (t : Trie) (h : Trie.Hit) (rest : List Trie.Hit) (list : Nat) :
    longest? t (h :: rest) list = (longest? t rest list).or
      (if (Trie.attributesOf (t.markersAt h.node) list).isSome then some h else none) := by
  rw [longest?, List.reverse_cons, List.find?_append, longest?]
  by_cases hl : (Trie.attributesOf (t.markersAt h.node) list).isSome = true
  · simp [hl]
  · simp [hl]

/-- A hit is noted in the slots of the lists that have a marker at its node. -/
theorem getElem?_note (t : Trie) (slots : Slots) (h : Trie.Hit) (list : Nat) :
    (note t slots h)[list]? = slots[list]?.map fun slot =>
      if (Trie.attributesOf (t.markersAt h.node) list).isSome then some h else slot := by
  rw [note]
  generalize t.markersAt h.node = markers
  induction markers generalizing slots with
  | nil => simp [Trie.attributesOf]
  | cons m rest ih =>
      rw [List.foldl_cons, ih, Trie.attributesOf_cons, List.getElem?_set]
      by_cases hm : m.list = list
      · subst hm
        by_cases hlt : m.list < slots.length
        · simp [hlt]
        · simp [hlt]
      · simp [hm]

/-- A longer key overwrites a shorter one, hit after hit. -/
theorem getElem?_foldl_note (t : Trie) (hits : List Trie.Hit) (slots : Slots) (list : Nat) :
    (hits.foldl (note t) slots)[list]? =
      slots[list]?.map fun slot => (longest? t hits list).or slot := by
  induction hits generalizing slots with
  | nil => simp [longest?]
  | cons h rest ih =>
      rw [List.foldl_cons, ih, getElem?_note, longest?_cons, Option.map_map]
      congr 1
      funext slot
      cases longest? t rest list with
      | some last => simp
      | none =>
          by_cases hl : (Trie.attributesOf (t.markersAt h.node) list).isSome = true
          · simp [hl]
          · simp [hl]

/-- **A slot has the longest key of its list.** -/
theorem getElem?_longest (t : Trie) (hits : List Trie.Hit) {count list : Nat}
    (h : list < count) : (longest t count hits)[list]? = some (longest? t hits list) := by
  rw [longest, getElem?_foldl_note, List.getElem?_replicate, if_pos h]
  simp

/-- Noting a hit keeps the number of slots. -/
theorem length_note (t : Trie) (slots : Slots) (h : Trie.Hit) :
    (note t slots h).length = slots.length := by
  rw [note]
  generalize t.markersAt h.node = markers
  induction markers generalizing slots with
  | nil => rfl
  | cons m rest ih => rw [List.foldl_cons, ih, List.length_set]

/-- Noting hits keeps the number of slots. -/
theorem length_foldl_note (t : Trie) (hits : List Trie.Hit) (slots : Slots) :
    (hits.foldl (note t) slots).length = slots.length := by
  induction hits generalizing slots with
  | nil => rfl
  | cons h rest ih => rw [List.foldl_cons, ih, length_note]

/-- There is one slot for each list. -/
theorem length_longest (t : Trie) (count : Nat) (hits : List Trie.Hit) :
    (longest t count hits).length = count := by
  rw [longest, length_foldl_note, List.length_replicate]

/-! ### Keys -/

/-- A list **has a key** of `n` tokens at the beginning of a token sequence. -/
def HasKey (t : Trie) (tokens : List String) (list n : Nat) : Prop :=
  1 ≤ n ∧ n ≤ tokens.length ∧
    (Trie.attributesOf (t.markers (tokens.take n)) list).isSome = true

/-- The keys of a list are the hits at which it has attributes. -/
theorem hasKey_iff {tokens : List String} {list n : Nat} :
    HasKey t tokens list n ↔ ∃ h ∈ t.hits tokens, h.depth = n ∧
      (Trie.attributesOf (t.markersAt h.node) list).isSome = true := by
  constructor
  · rintro ⟨hpos, hle, hsome⟩
    obtain ⟨m, hm, -⟩ := Trie.isSome_attributesOf_iff.mp hsome
    obtain ⟨node, hfind, hnode⟩ := Trie.exists_of_mem_markersFrom hm
    have hhit : ⟨n, node⟩ ∈ t.hits tokens :=
      Trie.mem_hits_iff.mpr ⟨hpos, hle, hfind, Trie.isTerminal_iff.mpr ⟨m, hnode⟩⟩
    refine ⟨⟨n, node⟩, hhit, rfl, ?_⟩
    rwa [← Trie.markers_take_of_mem_hits hhit]
  · rintro ⟨h, hh, rfl, hsome⟩
    obtain ⟨hpos, hle, -, -⟩ := Trie.mem_hits_iff.mp hh
    refine ⟨hpos, hle, ?_⟩
    rwa [Trie.markers_take_of_mem_hits hh]

/-- There is no longest key if there is none. -/
theorem longest?_hits_eq_none_iff {tokens : List String} {list : Nat} :
    longest? t (t.hits tokens) list = none ↔ ∀ n, ¬ HasKey t tokens list n := by
  rw [longest?, List.find?_eq_none]
  constructor
  · intro hnone n hkey
    obtain ⟨h, hh, -, hsome⟩ := hasKey_iff.mp hkey
    exact hnone h (List.mem_reverse.mpr hh) hsome
  · intro hno h hh hsome
    exact hno h.depth (hasKey_iff.mpr ⟨h, List.mem_reverse.mp hh, rfl, hsome⟩)

/-- **The longest key of a list** is a key of it, and no key of it is longer. -/
theorem longest?_hits_eq_some_iff {tokens : List String} {list : Nat} {h : Trie.Hit} :
    longest? t (t.hits tokens) list = some h ↔
      t.find? (tokens.take h.depth) = some h.node ∧ HasKey t tokens list h.depth ∧
        ∀ n, HasKey t tokens list n → n ≤ h.depth := by
  have hlongest : ∀ h', longest? t (t.hits tokens) list = some h' →
      t.find? (tokens.take h'.depth) = some h'.node ∧ HasKey t tokens list h'.depth ∧
        ∀ n, HasKey t tokens list n → n ≤ h'.depth := by
    intro h' hfind
    obtain ⟨hsome, before, behind, hsplit, hbefore⟩ := List.find?_eq_some_iff_append.mp hfind
    have hhits : t.hits tokens = behind.reverse ++ h' :: before.reverse := by
      rw [← List.reverse_reverse (t.hits tokens), hsplit]
      simp
    have hmem : h' ∈ t.hits tokens := by simp [hhits]
    refine ⟨(Trie.mem_hits_iff.mp hmem).2.2.1, hasKey_iff.mpr ⟨h', hmem, rfl, hsome⟩, ?_⟩
    intro n hkey
    obtain ⟨other, hother, rfl, hothersome⟩ := hasKey_iff.mp hkey
    rw [hhits] at hother
    rcases List.mem_append.mp hother with hshorter | hother
    · have hsorted := Trie.hitsFrom_sorted (t := t) 0 0 tokens
      rw [← Trie.hits, hhits] at hsorted
      have := (List.pairwise_append.mp hsorted).2.2 other hshorter h' List.mem_cons_self
      omega
    · rcases List.mem_cons.mp hother with rfl | hlonger
      · exact Nat.le_refl _
      · have := hbefore other (List.mem_reverse.mp hlonger)
        simp [hothersome] at this
  constructor
  · exact hlongest h
  · rintro ⟨hfind, hkey, hmax⟩
    cases hl : longest? t (t.hits tokens) list with
    | none => exact absurd hkey (longest?_hits_eq_none_iff.mp hl h.depth)
    | some h' =>
        obtain ⟨hfind', hkey', hmax'⟩ := hlongest h' hl
        have hdepth : h'.depth = h.depth := Nat.le_antisymm (hmax _ hkey') (hmax' _ hkey)
        rw [hdepth, hfind] at hfind'
        have hnode : h.node = h'.node := Option.some.inj hfind'
        cases h
        cases h'
        simp_all

end Scan

end AnnotatedText
