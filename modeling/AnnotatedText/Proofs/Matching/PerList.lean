import AnnotatedText.Proofs.Dictionary.Obtained
import AnnotatedText.Proofs.Matching.Projection

/-!
# Scans in the scope of each list

What a scan in the scope of each list finds, said by look-ups alone: from each token the longest key
of each list, found by looking up all token sequences from there on, unless it begins inside the
list's previous match and overlaps are not allowed. The one shared pass through the trie, its slots
and the places at which matches end do not occur in it.

The previous match is taken from what is found, so the description refers to itself; it is settled
from the first token on, which is how `mem_scanList_iff` is proved. Between the tokens before and
those behind stands `Scan.Ready`: where the last match ends tells for every later token what the
previous match there does.

## Main results

* `Scan.mem_scanList_iff`, `Scan.mem_perList_iff`: what a scan finds.
* `Dictionary.isLongest_iff`: the longest key of a scan is the longest key of look-ups.
* `Worker.attributes_of_mem_found`: a match has the attributes that are looked up for it.
-/

namespace AnnotatedText

namespace Scan

variable {t : Trie} {overlap : Bool}

/-- The **previous match** of a list at a token: the last one that begins before it. -/
structure IsPrevious (found : List Match) (list start : Nat) (p : Match) : Prop where
  mem : p ∈ found
  list_eq : p.list = list
  begins_before : p.start < start
  is_last : ∀ other ∈ found, other.list = list → other.start < start → other.start ≤ p.start

/-- Only the matches of the list count. -/
theorem isPrevious_filter_iff {found : List Match} {list start : Nat} {p : Match} :
    IsPrevious (found.filter fun m => m.list = list) list start p ↔
      IsPrevious found list start p := by
  constructor
  · rintro ⟨hmem, hlist, hbefore, hlast⟩
    refine ⟨(List.mem_filter.mp hmem).1, hlist, hbefore, fun other hother hl => ?_⟩
    exact hlast other (List.mem_filter.mpr ⟨hother, by simpa using hl⟩) hl
  · rintro ⟨hmem, hlist, hbefore, hlast⟩
    refine ⟨List.mem_filter.mpr ⟨hmem, by simpa using hlist⟩, hlist, hbefore, fun other hother => ?_⟩
    exact hlast other (List.mem_filter.mp hother).1

/-- Matches at later tokens do not count. -/
theorem isPrevious_append_iff {before behind : List Match} {list start : Nat} {p : Match}
    (h : ∀ m ∈ behind, start ≤ m.start) :
    IsPrevious (before ++ behind) list start p ↔ IsPrevious before list start p := by
  constructor
  · rintro ⟨hmem, hlist, hbefore, hlast⟩
    refine ⟨?_, hlist, hbefore, fun other hother => hlast other (List.mem_append_left _ hother)⟩
    rcases List.mem_append.mp hmem with hmem | hmem
    · exact hmem
    · have := h p hmem
      omega
  · rintro ⟨hmem, hlist, hbefore, hlast⟩
    refine ⟨List.mem_append_left _ hmem, hlist, hbefore, fun other hother hl hlt => ?_⟩
    rcases List.mem_append.mp hother with hother | hother
    · exact hlast other hother hl hlt
    · have := h other hother
      omega

/-! ### The scan of one list -/

/-- A scan of a list is **ready** at a token behind what was found before: from there on, the place
at which the last match ends tells whether the previous match has ended. -/
structure Ready (before : List Match) (list start free : Nat) : Prop where
  begins_before : ∀ p ∈ before, p.start < start
  free_le_iff : ∀ s, start ≤ s → (free ≤ s ↔ ∀ p, IsPrevious before list s p → p.stop ≤ s)

/-- Where nothing was found before, a scan is ready at its first token. -/
theorem ready_nil (list : Nat) : Ready [] list 0 0 where
  begins_before := by simp
  free_le_iff s _ := by
    refine ⟨fun _ p hp => ?_, fun _ => Nat.zero_le s⟩
    exact absurd hp.mem List.not_mem_nil

/-- A list has a match at a token if its slot has a hit and, without overlaps, its last match has
ended. -/
theorem mem_matchList_iff {start list free : Nat} {slot : Option Trie.Hit} {m : Match} :
    m ∈ (matchList overlap start list slot free).1.toList ↔
      (∃ h, slot = some h ∧ m = ⟨start, start + h.depth, list, h.node⟩) ∧
        (overlap = true ∨ free ≤ start) := by
  cases slot with
  | none => simp [matchList]
  | some h =>
      by_cases hfree : overlap = true ∨ free ≤ start
      · simp [matchList, hfree]
      · simp [matchList, hfree]

/-- **A scan stays ready** from one token to the next. -/
theorem Ready.step {before : List Match} {list start free : Nat} (h : Ready before list start free)
    (slot : Option Trie.Hit) :
    Ready (before ++ (matchList overlap start list slot free).1.toList) list (start + 1)
      (matchList overlap start list slot free).2 := by
  have hskip : Ready before list (start + 1) free :=
    ⟨fun p hp => Nat.lt_succ_of_lt (h.begins_before p hp), fun s hs => h.free_le_iff s (by omega)⟩
  cases slot with
  | none => simpa [matchList] using hskip
  | some hit =>
      by_cases hfree : overlap = true ∨ free ≤ start
      · simp only [matchList, hfree, if_true, Option.toList_some]
        refine ⟨fun p hp => ?_, fun s hs => ?_⟩
        · rcases List.mem_append.mp hp with hp | hp
          · exact Nat.lt_succ_of_lt (h.begins_before p hp)
          · obtain rfl := List.mem_singleton.mp hp
            exact Nat.lt_succ_self start
        · constructor
          · intro hle p hp
            rcases List.mem_append.mp hp.mem with hmem | hmem
            · -- the new match begins behind all others, so none of them is the previous one
              have hlt := h.begins_before p hmem
              have hlast := hp.is_last ⟨start, start + hit.depth, list, hit.node⟩ (by simp) rfl hs
              exact absurd hlt (Nat.not_lt.mpr hlast)
            · obtain rfl := List.mem_singleton.mp hmem
              exact hle
          · intro hprevious
            refine hprevious ⟨start, start + hit.depth, list, hit.node⟩ ⟨by simp, rfl, hs, ?_⟩
            intro other hother _ _
            rcases List.mem_append.mp hother with hmem | hmem
            · exact Nat.le_of_lt (h.begins_before other hmem)
            · obtain rfl := List.mem_singleton.mp hmem
              exact Nat.le_refl _
      · simpa [matchList, hfree] using hskip

/-- **What the scan of a list finds**: from each token its longest key, unless that begins inside the
previous match and overlaps are not allowed. -/
theorem mem_scanList_iff {before : List Match} {list start free : Nat} {tokens : List String}
    (hready : Ready before list start free) {m : Match} :
    m ∈ scanList t overlap list start free tokens ↔
      start ≤ m.start ∧
        (∃ h, longest? t (t.hits (tokens.drop (m.start - start))) list = some h ∧
          m = ⟨m.start, m.start + h.depth, list, h.node⟩) ∧
        (overlap = true ∨ ∀ p, IsPrevious (before ++ scanList t overlap list start free tokens) list
          m.start p → p.stop ≤ m.start) := by
  induction tokens generalizing before start free with
  | nil => simp [scanList, longest?, Trie.hits, Trie.hitsFrom]
  | cons token rest ih =>
      rw [scanList]
      generalize hslot : longest? t (t.hits (token :: rest)) list = slot
      have hbehind : ∀ p ∈ scanList t overlap list (start + 1)
          (matchList overlap start list slot free).2 rest, start + 1 ≤ p.start :=
        fun p hp => (bounds_of_mem_scanList hp).1
      have hnow : ∀ p ∈ (matchList overlap start list slot free).1.toList, p.start = start :=
        fun p hp => (start_and_list_of_matchList (Option.mem_toList.mp hp)).1
      rw [List.mem_append]
      obtain hlt | heq | hgt := Nat.lt_trichotomy m.start start
      · -- nothing begins before the first token
        refine ⟨fun hm => ?_, fun hm => absurd hm.1 (by omega)⟩
        rcases hm with hm | hm
        · have := hnow m hm
          omega
        · have := hbehind m hm
          omega
      · -- at the first token the previous match is one found before
        subst heq
        have hlater : ∀ p ∈ (matchList overlap m.start list slot free).1.toList ++
            scanList t overlap list (m.start + 1) (matchList overlap m.start list slot free).2 rest,
            m.start ≤ p.start := by
          intro p hp
          rcases List.mem_append.mp hp with hp | hp
          · exact Nat.le_of_eq (hnow p hp).symm
          · exact Nat.le_of_succ_le (hbehind p hp)
        have hnot : ¬ m ∈ scanList t overlap list (m.start + 1)
            (matchList overlap m.start list slot free).2 rest := by
          intro hm
          have := hbehind m hm
          omega
        simp only [isPrevious_append_iff hlater, Nat.sub_self, List.drop_zero, hslot, hnot, or_false,
          Nat.le_refl, true_and, mem_matchList_iff, hready.free_le_iff m.start (Nat.le_refl _)]
      · -- at a later token the match at the first one has joined those found before
        have hnot : ¬ m ∈ (matchList overlap start list slot free).1.toList := by
          intro hm
          have := hnow m hm
          omega
        have hdrop : (token :: rest).drop (m.start - start) = rest.drop (m.start - (start + 1)) := by
          rw [show m.start - start = m.start - (start + 1) + 1 by omega, List.drop_succ_cons]
        rw [hdrop, or_iff_right hnot, ih (hready.step slot), List.append_assoc]
        simp only [Nat.le_of_lt hgt, Nat.succ_le_of_lt hgt]

/-- **What a scan in the scope of each list finds.** -/
theorem mem_perList_iff {count : Nat} {keys : List String} {m : Match} :
    m ∈ perList t overlap 0 (List.replicate count 0) keys ↔
      m.list < count ∧
        (∃ h, longest? t (t.hits (keys.drop m.start)) m.list = some h ∧
          m = ⟨m.start, m.start + h.depth, m.list, h.node⟩) ∧
        (overlap = true ∨ ∀ p, IsPrevious (perList t overlap 0 (List.replicate count 0) keys) m.list
          m.start p → p.stop ≤ m.start) := by
  by_cases hlt : m.list < count
  · have hfilter : (perList t overlap 0 (List.replicate count 0) keys).filter
        (fun other => other.list = m.list) = scanList t overlap m.list 0 0 keys :=
      filter_perList (List.getElem?_replicate_of_lt hlt) keys
    have hfound : m ∈ perList t overlap 0 (List.replicate count 0) keys ↔
        m ∈ scanList t overlap m.list 0 0 keys := by
      rw [← hfilter, List.mem_filter]
      simp
    rw [hfound, mem_scanList_iff (ready_nil m.list), List.nil_append, ← hfilter]
    simp only [isPrevious_filter_iff, Nat.zero_le, Nat.sub_zero, hlt, true_and]
  · refine ⟨fun hm => absurd (bounds_of_mem_perList hm).2 ?_, fun hm => absurd hm.1 hlt⟩
    rwa [List.length_replicate]

end Scan

/-! ### Look-ups -/

namespace Dictionary

/-- A list **has a key** of `n` tokens from the token `start` on: looking them up finds a marker of
the list. -/
def HasKey (d : Dictionary) (tokens : List String) (list start n : Nat) : Prop :=
  1 ≤ n ∧ start + n ≤ tokens.length ∧
    ∃ m ∈ d.lookup ((tokens.drop start).take n), m.list = list

/-- The **longest** key of a list from the token `start` on has `n` tokens. -/
structure IsLongest (d : Dictionary) (tokens : List String) (list start n : Nat) : Prop where
  has_key : d.HasKey tokens list start n
  is_longest : ∀ other, d.HasKey tokens list start other → other ≤ n

/-- A slice of tokens is looked up by the slice of their keys. -/
theorem lookup_slice (d : Dictionary) (tokens : List String) (start n : Nat) :
    d.lookup ((tokens.drop start).take n) =
      d.trie.markers (((d.keysOf tokens).drop start).take n) := by
  rw [lookup_eq, keysOf, List.map_take, List.map_drop]

/-- Looking up tokens is following their folded forms in the trie. -/
theorem hasKey_iff {d : Dictionary} {tokens : List String} {list start n : Nat} :
    d.HasKey tokens list start n ↔ Scan.HasKey d.trie ((d.keysOf tokens).drop start) list n := by
  rw [HasKey, Scan.HasKey, Trie.isSome_attributesOf_iff, lookup_slice, List.length_drop, keysOf,
    List.length_map]
  constructor
  · rintro ⟨hpos, hle, hm⟩
    exact ⟨hpos, by omega, hm⟩
  · rintro ⟨hpos, hle, hm⟩
    exact ⟨hpos, by omega, hm⟩

/-- **The longest key that a scan notes is the longest one that look-ups find.** -/
theorem isLongest_iff {d : Dictionary} {tokens : List String} {list start n : Nat} :
    d.IsLongest tokens list start n ↔
      ∃ h, Scan.longest? d.trie (d.trie.hits ((d.keysOf tokens).drop start)) list = some h ∧
        h.depth = n := by
  constructor
  · rintro ⟨hkey, hmax⟩
    cases hl : Scan.longest? d.trie (d.trie.hits ((d.keysOf tokens).drop start)) list with
    | none => exact absurd (hasKey_iff.mp hkey) (Scan.longest?_hits_eq_none_iff.mp hl n)
    | some h =>
        obtain ⟨-, hkey', hmax'⟩ := Scan.longest?_hits_eq_some_iff.mp hl
        have hle := hmax' n (hasKey_iff.mp hkey)
        have hge := hmax h.depth (hasKey_iff.mpr hkey')
        exact ⟨h, rfl, Nat.le_antisymm hge hle⟩
  · rintro ⟨h, hl, rfl⟩
    obtain ⟨-, hkey, hmax⟩ := Scan.longest?_hits_eq_some_iff.mp hl
    exact ⟨hasKey_iff.mpr hkey, fun other hother => hmax other (hasKey_iff.mp hother)⟩

end Dictionary

/-! ### Workers -/

namespace Worker

/-- A match of an obtained dictionary has the attributes of the marker that is looked up for it, the
only one of its list. -/
theorem attributes_of_mem_found {k : Container.Codec} {w : Worker}
    (hd : Dictionary.Obtained k w.matcher.dictionary) (hscope : w.matcher.scope = .perList)
    {text : String} {m : Match} (hm : m ∈ (w.reset text).scan.found) :
    ∃ marker ∈ w.matcher.dictionary.lookup (((tokenize text).drop m.start).take (m.stop - m.start)),
      marker.list = m.list ∧ (w.reset text).scan.attributes m = marker.attributes ∧
        ∀ other ∈ w.matcher.dictionary.lookup
          (((tokenize text).drop m.start).take (m.stop - m.start)),
          other.list = m.list → other = marker := by
  rw [found_reset_scan hscope] at hm
  obtain ⟨-, ⟨h, hlongest, hmatch⟩, -⟩ := Scan.mem_perList_iff.mp hm
  obtain ⟨hfind, hkey, -⟩ := Scan.longest?_hits_eq_some_iff.mp hlongest
  have hstop : m.stop - m.start = h.depth := by
    rw [hmatch]
    exact Nat.add_sub_cancel_left ..
  have hnode : m.node = h.node := by rw [hmatch]
  have hlookup : w.matcher.dictionary.lookup
      (((tokenize text).drop m.start).take (m.stop - m.start)) =
        w.matcher.dictionary.trie.markersAt m.node := by
    rw [Dictionary.lookup_slice, hstop, hnode]
    exact Trie.markersFrom_of_findFrom hfind
  obtain ⟨-, -, hsome⟩ := hkey
  rw [Trie.markers, Trie.markersFrom_of_findFrom hfind, ← hnode] at hsome
  obtain ⟨marker, hmarker, hlist⟩ := Trie.isSome_attributesOf_iff.mp hsome
  rw [hlookup]
  refine ⟨marker, hmarker, hlist, ?_, fun other hother hl => ?_⟩
  · have hattributes := hd.wellFormed.attributesOf_markersAt hmarker
    rw [hlist] at hattributes
    show (Trie.attributesOf (w.matcher.dictionary.trie.markersAt m.node) m.list).getD [] = _
    rw [hattributes]
    rfl
  · exact hd.wellFormed.marker_unique hother hmarker (hl.trans hlist.symm)

/-- **A worker finds what look-ups find.** In the scope of each list the matches are, in the order of
their beginnings and lists and each once, the longest keys of the lists from each token on, unless
one begins inside the previous match of its list and overlaps are not allowed; each has the
attributes that are looked up for its tokens. -/
theorem perList_spec {k : Container.Codec} {w : Worker}
    (hd : Dictionary.Obtained k w.matcher.dictionary) (hscope : w.matcher.scope = .perList)
    (text : String) :
    ((w.reset text).scan.found.Pairwise fun a b =>
        a.start < b.start ∨ a.start = b.start ∧ a.list < b.list) ∧
      (∀ start stop list,
        (∃ m ∈ (w.reset text).scan.found, m.start = start ∧ m.stop = stop ∧ m.list = list) ↔
          ∃ n, stop = start + n ∧
            w.matcher.dictionary.IsLongest (tokenize text) list start n ∧
            (w.matcher.overlap = false → ∀ p,
              Scan.IsPrevious (w.reset text).scan.found list start p → p.stop ≤ start)) ∧
      ∀ m ∈ (w.reset text).scan.found,
        ∃ marker ∈ w.matcher.dictionary.lookup
            (((tokenize text).drop m.start).take (m.stop - m.start)),
          marker.list = m.list ∧ (w.reset text).scan.attributes m = marker.attributes ∧
            ∀ other ∈ w.matcher.dictionary.lookup
              (((tokenize text).drop m.start).take (m.stop - m.start)),
              other.list = m.list → other = marker := by
  refine ⟨?_, ?_, fun m hm => attributes_of_mem_found hd hscope hm⟩
  · rw [found_reset_scan hscope]
    exact Scan.pairwise_perList _ _ _
  · intro start stop list
    rw [found_reset_scan hscope]
    constructor
    · rintro ⟨m, hm, rfl, rfl, rfl⟩
      obtain ⟨-, ⟨h, hlongest, hmatch⟩, hskip⟩ := Scan.mem_perList_iff.mp hm
      refine ⟨h.depth, by rw [hmatch], Dictionary.isLongest_iff.mpr ⟨h, hlongest, rfl⟩, ?_⟩
      intro hoverlap
      exact hskip.resolve_left (by simp [hoverlap])
    · rintro ⟨n, rfl, hlongest, hskip⟩
      obtain ⟨-, -, marker, hmarker, hlist⟩ := hlongest.has_key
      have hlt : list < w.matcher.dictionary.lists.length := hlist ▸ hd.lt_of_mem_lookup hmarker
      obtain ⟨h, hh, rfl⟩ := Dictionary.isLongest_iff.mp hlongest
      refine ⟨⟨start, start + h.depth, list, h.node⟩, Scan.mem_perList_iff.mpr ?_, rfl, rfl, rfl⟩
      refine ⟨hlt, ⟨h, hh, rfl⟩, ?_⟩
      cases hoverlap : w.matcher.overlap with
      | true => exact Or.inl rfl
      | false => exact Or.inr (hoverlap ▸ hskip hoverlap)

/-- The name of a city is its longest key where a longer name of another list begins as well. -/
theorem isLongest_new_york :
    (Sample.worker Sample.calls).matcher.dictionary.IsLongest
      (tokenize "In New York City it is new.") 0 1 2 := by
  have hobtained : Dictionary.Obtained .standard (Sample.worker Sample.calls).matcher.dictionary :=
    .built _ _
  have hmatch : (⟨1, 3, 0, 2⟩ : Match) ∈
      ((Sample.worker Sample.calls).reset "In New York City it is new.").scan.found := by
    decide +kernel
  obtain ⟨-, hfound, -⟩ := perList_spec hobtained rfl "In New York City it is new."
  obtain ⟨n, hn, hlongest, -⟩ := (hfound 1 3 0).mp ⟨_, hmatch, rfl, rfl, rfl⟩
  obtain rfl : n = 2 := by omega
  exact hlongest

end Worker

end AnnotatedText
