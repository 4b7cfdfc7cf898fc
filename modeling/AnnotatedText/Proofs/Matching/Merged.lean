import AnnotatedText.Proofs.Matching.PerList

/-!
# Scans in the merged scope

A merged scan keeps other notes than a scan in the scope of each list: the deepest hit at a token
instead of the longest of each list, and one place at which the last match ends instead of one for
each list. It is a function of the other scan all the same. With overlaps allowed it finds at each
token the **foremost** of the matches there, the longest one and among those of that length the one
of the first list (`Scan.mem_merged_overlap_iff`). Without overlaps it goes through these from left
to right and keeps each one that begins behind the last one kept (`Scan.merged_eq_apart`), so that
it does not matter that it passes over tokens without looking at the trie.

## Main results

* `Scan.mem_merged_iff`: a merged scan with overlaps finds the merged match of each token.
* `Scan.mem_merged_overlap_iff`: this is the foremost match of the other scan.
* `Scan.merged_eq_apart`: a merged scan without overlaps thins out the one with overlaps.
* `Worker.merged_of_perList`: both, for a worker and a text.
-/

namespace AnnotatedText

namespace Scan

variable {t : Trie} {overlap : Bool}

/-! ### With overlaps -/

/-- The merged match at a token is that of the longest hit, for the first marker at its node. -/
theorem mergedMatch?_eq_some_iff {start : Nat} {hits : List Trie.Hit} {m : Match} :
    mergedMatch? t start hits = some m ↔
      ∃ h first rest, hits.getLast? = some h ∧ t.markersAt h.node = first :: rest ∧
        m = ⟨start, start + h.depth, first.list, h.node⟩ := by
  constructor
  · intro hm
    unfold mergedMatch? at hm
    split at hm
    · cases hm
    · rename_i h hlast
      split at hm
      · cases hm
      · rename_i first rest hmarkers
        exact ⟨h, first, rest, hlast, hmarkers, (Option.some.inj hm).symm⟩
  · rintro ⟨h, first, rest, hlast, hmarkers, rfl⟩
    rw [mergedMatch?, hlast]
    simp only [hmarkers]

/-- A merged match is at its token. -/
theorem start_of_mergedMatch? {start : Nat} {hits : List Trie.Hit} {m : Match}
    (h : mergedMatch? t start hits = some m) : m.start = start := by
  obtain ⟨_, _, _, -, -, rfl⟩ := mergedMatch?_eq_some_iff.mp h
  rfl

/-- A scan finds nothing in front of where it begins. -/
theorem start_le_of_mem_merged {start free : Nat} {tokens : List String} {m : Match}
    (h : m ∈ merged t overlap start free tokens) : start ≤ m.start := by
  induction tokens generalizing start free with
  | nil => simp [merged] at h
  | cons token rest ih =>
      rw [merged] at h
      split at h
      · split at h
        · exact Nat.le_of_succ_le (ih h)
        · rename_i m' hm'
          rcases List.mem_cons.mp h with rfl | h
          · exact Nat.le_of_eq (start_of_mergedMatch? hm').symm
          · exact Nat.le_of_succ_le (ih h)
      · exact Nat.le_of_succ_le (ih h)

/-- Merged matches begin one behind the other. -/
theorem pairwise_merged (start free : Nat) (tokens : List String) :
    (merged t overlap start free tokens).Pairwise fun a b => a.start < b.start := by
  induction tokens generalizing start free with
  | nil => exact List.Pairwise.nil
  | cons token rest ih =>
      rw [merged]
      split
      · split
        · exact ih _ _
        · rename_i m hm
          refine List.pairwise_cons.mpr ⟨fun other hother => ?_, ih _ _⟩
          have hstart := start_of_mergedMatch? hm
          have hbehind := start_le_of_mem_merged hother
          omega
      · exact ih _ _

/-- **A merged scan with overlaps finds the merged match of each token.** -/
theorem mem_merged_iff {start free : Nat} {tokens : List String} {m : Match} :
    m ∈ merged t true start free tokens ↔
      start ≤ m.start ∧
        mergedMatch? t m.start (t.hits (tokens.drop (m.start - start))) = some m := by
  induction tokens generalizing start free with
  | nil => simp [merged, mergedMatch?, Trie.hits, Trie.hitsFrom]
  | cons token rest ih =>
      have hlater (free : Nat) (hlt : start < m.start) :
          m ∈ merged t true (start + 1) free rest ↔
            mergedMatch? t m.start (t.hits ((token :: rest).drop (m.start - start))) = some m := by
        rw [ih, show m.start - start = m.start - (start + 1) + 1 by omega, List.drop_succ_cons]
        exact and_iff_right hlt
      have hnot (free : Nat) (hle : m.start ≤ start) :
          ¬ m ∈ merged t true (start + 1) free rest := by
        intro hm
        have := start_le_of_mem_merged hm
        omega
      simp only [merged, true_or, if_true]
      obtain hlt | heq | hgt := Nat.lt_trichotomy m.start start
      · refine iff_of_false (fun hm => ?_) (fun hm => absurd hm.1 (by omega))
        split at hm
        · exact hnot _ (Nat.le_of_lt hlt) hm
        · rename_i first hfirst
          rcases List.mem_cons.mp hm with rfl | hm
          · exact absurd (start_of_mergedMatch? hfirst) (by omega)
          · exact hnot _ (Nat.le_of_lt hlt) hm
      · subst heq
        rw [Nat.sub_self, List.drop_zero, and_iff_right (Nat.le_refl _)]
        split
        · rename_i hnone
          rw [hnone]
          exact iff_of_false (hnot _ (Nat.le_refl _)) (Option.some_ne_none m).symm
        · rename_i first hfirst
          rw [hfirst, List.mem_cons, or_iff_left (hnot _ (Nat.le_refl _)), Option.some.injEq]
          exact eq_comm
      · rw [and_iff_right (Nat.le_of_lt hgt)]
        split
        · exact hlater _ hgt
        · rename_i first hfirst
          have hne : ¬ m = first := by
            rintro rfl
            exact absurd (start_of_mergedMatch? hfirst) (by omega)
          rw [List.mem_cons, or_iff_right hne]
          exact hlater _ hgt

/-! ### The foremost match -/

/-- A match is **foremost** if no other one at its token is longer, or as long and of a list before
its own. -/
structure IsForemost (found : List Match) (m : Match) : Prop where
  mem : m ∈ found
  is_first : ∀ other ∈ found, other.start = m.start →
    other.stop < m.stop ∨ other.stop = m.stop ∧ m.list ≤ other.list

/-- In the scope of each list there is at most one match of a list at a token. -/
theorem eq_of_mem_perList {start : Nat} {frees : List Nat} {tokens : List String} {m m' : Match}
    (h : m ∈ perList t overlap start frees tokens) (h' : m' ∈ perList t overlap start frees tokens)
    (hstart : m.start = m'.start) (hlist : m.list = m'.list) : m = m' := by
  have hsorted : (perList t overlap start frees tokens).Pairwise fun a b =>
      a.start < b.start ∨ a.start = b.start ∧ a.list < b.list := pairwise_perList start frees tokens
  obtain ⟨i, hi, hmi⟩ := List.getElem_of_mem h
  obtain ⟨j, hj, hmj⟩ := List.getElem_of_mem h'
  obtain hlt | rfl | hgt := Nat.lt_trichotomy i j
  · have hij := List.pairwise_iff_getElem.mp hsorted i j hi hj hlt
    rw [hmi, hmj] at hij
    omega
  · exact hmi.symm.trans hmj
  · have hji := List.pairwise_iff_getElem.mp hsorted j i hj hi hgt
    rw [hmi, hmj] at hji
    omega

/-- A token has at most one foremost match. -/
theorem IsForemost.unique {start : Nat} {frees : List Nat} {tokens : List String} {m m' : Match}
    (h : IsForemost (perList t overlap start frees tokens) m)
    (h' : IsForemost (perList t overlap start frees tokens) m') (hstart : m.start = m'.start) :
    m = m' := by
  have hm := h.is_first m' h'.mem hstart.symm
  have hm' := h'.is_first m h.mem hstart
  exact eq_of_mem_perList h.mem h'.mem hstart (by omega)

/-- The last hit is the longest one. -/
theorem depth_le_of_getLast? {tokens : List String} {h last : Trie.Hit}
    (hlast : (t.hits tokens).getLast? = some last) (hh : h ∈ t.hits tokens) :
    h = last ∨ h.depth < last.depth := by
  obtain ⟨before, hsplit⟩ := List.getLast?_eq_some_iff.mp hlast
  have hsorted := Trie.hitsFrom_sorted (t := t) 0 0 tokens
  rw [← Trie.hits, hsplit] at hsorted
  rw [hsplit] at hh
  rcases List.mem_append.mp hh with hbefore | hh
  · exact Or.inr ((List.pairwise_append.mp hsorted).2.2 h hbefore last List.mem_cons_self)
  · exact Or.inl (List.mem_singleton.mp hh)

/-- A list that has a key at the last hit has its longest key there. -/
theorem longest?_of_getLast? {hits : List Trie.Hit} {last : Trie.Hit} {m : Marker}
    (hlast : hits.getLast? = some last) (hm : m ∈ t.markersAt last.node) :
    longest? t hits m.list = some last := by
  obtain ⟨before, rfl⟩ := List.getLast?_eq_some_iff.mp hlast
  have hsome : (Trie.attributesOf (t.markersAt last.node) m.list).isSome = true :=
    Trie.isSome_attributesOf_iff.mpr ⟨m, hm, rfl⟩
  rw [longest?, List.reverse_append, List.reverse_singleton, List.singleton_append]
  exact List.find?_cons_of_pos hsome

/-- With overlap each list has its longest hit at each token as a match. -/
theorem mem_perList_overlap_iff {count : Nat} {keys : List String} {m : Match} :
    m ∈ perList t true 0 (List.replicate count 0) keys ↔
      m.list < count ∧ ∃ h, longest? t (t.hits (keys.drop m.start)) m.list = some h ∧
        m = ⟨m.start, m.start + h.depth, m.list, h.node⟩ := by
  rw [mem_perList_iff]
  simp

variable {lists : List (List Column)} {keys : List String}

/-- **The merged match of a token is the foremost one.** -/
theorem isForemost_of_mergedMatch? (hwf : t.WellFormed lists) {m : Match}
    (h : mergedMatch? t m.start (t.hits (keys.drop m.start)) = some m) :
    IsForemost (perList t true 0 (List.replicate lists.length 0) keys) m := by
  obtain ⟨last, first, rest, hlast, hmarkers, hmatch⟩ := mergedMatch?_eq_some_iff.mp h
  have hfirst : first ∈ t.markersAt last.node := by rw [hmarkers]; exact List.mem_cons_self
  have hlist : m.list = first.list := by rw [hmatch]
  have hstop : m.stop = m.start + last.depth := by rw [hmatch]
  refine ⟨mem_perList_overlap_iff.mpr ⟨?_, last, ?_, ?_⟩, fun other hother hstart => ?_⟩
  · rw [hlist]
    exact hwf.lt_of_mem_markersAt hfirst
  · rw [hlist]
    exact longest?_of_getLast? hlast hfirst
  · rw [hlist]
    exact hmatch
  · obtain ⟨-, hit, hlongest, hother⟩ := mem_perList_overlap_iff.mp hother
    rw [hstart] at hlongest hother
    have hotherstop : other.stop = m.start + hit.depth := by rw [hother]
    obtain ⟨-, hkey, -⟩ := longest?_hits_eq_some_iff.mp hlongest
    obtain ⟨hit', hmem, hdepth, hsome⟩ := hasKey_iff.mp hkey
    rcases depth_le_of_getLast? hlast hmem with rfl | hlt
    · -- as long: both end at one node, whose markers are in the order of their lists
      obtain ⟨marker, hmarker, hmarkerlist⟩ := Trie.isSome_attributesOf_iff.mp hsome
      refine Or.inr ⟨by omega, ?_⟩
      have hsorted := hwf.markers_sorted hit'.node
      rw [hmarkers] at hmarker hsorted
      rcases List.mem_cons.mp hmarker with rfl | hmarker
      · omega
      · have := List.rel_of_pairwise_cons hsorted hmarker
        omega
    · exact Or.inl (by omega)

/-- Where a list has a match there is a merged one. -/
theorem exists_mergedMatch? {m : Match} {count : Nat}
    (h : m ∈ perList t true 0 (List.replicate count 0) keys) :
    ∃ m', mergedMatch? t m.start (t.hits (keys.drop m.start)) = some m' := by
  obtain ⟨-, hit, hlongest, -⟩ := mem_perList_overlap_iff.mp h
  obtain ⟨-, hkey, -⟩ := longest?_hits_eq_some_iff.mp hlongest
  obtain ⟨hit', hmem, -, -⟩ := hasKey_iff.mp hkey
  cases hlast : (t.hits (keys.drop m.start)).getLast? with
  | none =>
      rw [List.getLast?_eq_none_iff.mp hlast] at hmem
      exact absurd hmem List.not_mem_nil
  | some last =>
      have hterminal := (Trie.mem_hits_iff.mp (List.mem_of_getLast? hlast)).2.2.2
      obtain ⟨marker, hmarker⟩ := Trie.isTerminal_iff.mp hterminal
      obtain ⟨first, rest, hmarkers⟩ := List.exists_cons_of_ne_nil (List.ne_nil_of_mem hmarker)
      exact ⟨_, mergedMatch?_eq_some_iff.mpr ⟨last, first, rest, hlast, hmarkers, rfl⟩⟩

/-- **A merged scan with overlaps finds the foremost matches** of the scan in the scope of each
list. -/
theorem mem_merged_overlap_iff (hwf : t.WellFormed lists) {m : Match} :
    m ∈ merged t true 0 0 keys ↔
      IsForemost (perList t true 0 (List.replicate lists.length 0) keys) m := by
  rw [mem_merged_iff, Nat.sub_zero, and_iff_right (Nat.zero_le _)]
  constructor
  · exact isForemost_of_mergedMatch? hwf
  · intro h
    obtain ⟨m', hm'⟩ := exists_mergedMatch? h.mem
    have hstart := start_of_mergedMatch? hm'
    rw [← hstart] at hm'
    have hforemost := isForemost_of_mergedMatch? hwf hm'
    obtain rfl := h.unique hforemost hstart.symm
    exact hm'

/-- It finds one at each token where the other scan finds any. -/
theorem exists_mem_merged_iff (hwf : t.WellFormed lists) {start : Nat} :
    (∃ m ∈ merged t true 0 0 keys, m.start = start) ↔
      ∃ m ∈ perList t true 0 (List.replicate lists.length 0) keys, m.start = start := by
  constructor
  · rintro ⟨m, hm, hstart⟩
    exact ⟨m, ((mem_merged_overlap_iff hwf).mp hm).mem, hstart⟩
  · rintro ⟨m, hm, rfl⟩
    obtain ⟨m', hm'⟩ := exists_mergedMatch? hm
    have hstart := start_of_mergedMatch? hm'
    refine ⟨m', mem_merged_iff.mpr ⟨Nat.zero_le _, ?_⟩, hstart⟩
    rw [hstart]
    exact hm'

/-! ### Without overlaps -/

/-- The matches that are **kept apart**: from left to right each one that does not begin before
`free`, which is then where it ends. -/
def apart : Nat → List Match → List Match
  | _, [] => []
  | free, m :: rest => if free ≤ m.start then m :: apart m.stop rest else apart free rest

/-- Keeping matches apart drops some of them. -/
theorem apart_sublist (free : Nat) (found : List Match) : (apart free found).Sublist found := by
  induction found generalizing free with
  | nil => exact List.Sublist.refl _
  | cons m rest ih =>
      rw [apart]
      split
      · exact (ih m.stop).cons_cons m
      · exact (ih free).cons m

/-- Matches that are kept begin behind the place before which none may begin. -/
theorem free_le_of_mem_apart {free : Nat} {found : List Match} (h : ∀ m ∈ found, m.start ≤ m.stop)
    {m : Match} (hm : m ∈ apart free found) : free ≤ m.start := by
  induction found generalizing free with
  | nil => simp [apart] at hm
  | cons first rest ih =>
      obtain ⟨hfirst, hrest⟩ := List.forall_mem_cons.mp h
      rw [apart] at hm
      split at hm
      · rename_i hfree
        rcases List.mem_cons.mp hm with rfl | hm
        · exact hfree
        · have := ih hrest hm
          omega
      · exact ih hrest hm

/-- **Matches that are kept apart do not overlap.** -/
theorem pairwise_apart (free : Nat) {found : List Match} (h : ∀ m ∈ found, m.start ≤ m.stop) :
    (apart free found).Pairwise fun a b => a.stop ≤ b.start := by
  induction found generalizing free with
  | nil => exact List.Pairwise.nil
  | cons first rest ih =>
      obtain ⟨-, hrest⟩ := List.forall_mem_cons.mp h
      rw [apart]
      split
      · exact List.pairwise_cons.mpr ⟨fun m hm => free_le_of_mem_apart hrest hm, ih _ hrest⟩
      · exact ih _ hrest

/-- **A merged scan without overlaps keeps apart** what the one with overlaps finds. -/
theorem merged_eq_apart (start free free' : Nat) (tokens : List String) :
    merged t false start free tokens = apart free (merged t true start free' tokens) := by
  induction tokens generalizing start free free' with
  | nil => rfl
  | cons token rest ih =>
      simp only [merged, true_or, if_true, Bool.false_eq_true, false_or]
      cases hm : mergedMatch? t start (t.hits (token :: rest)) with
      | none =>
          simp only [ite_self]
          exact ih _ _ _
      | some m =>
          have hstart := start_of_mergedMatch? hm
          simp only [apart, hstart]
          by_cases hfree : free ≤ start
          · rw [if_pos hfree, if_pos hfree, ih _ _ m.stop]
          · rw [if_neg hfree, if_neg hfree, ih _ _ m.stop]

/-- A merged match ends behind its beginning. -/
theorem start_lt_stop_of_mem_merged {keys : List String} {m : Match}
    (h : m ∈ merged t true 0 0 keys) : m.start < m.stop := by
  obtain ⟨-, hm⟩ := mem_merged_iff.mp h
  obtain ⟨last, first, rest, hlast, -, hmatch⟩ := mergedMatch?_eq_some_iff.mp hm
  have hpos := (Trie.mem_hits_iff.mp (List.mem_of_getLast? hlast)).1
  have hstop : m.stop = m.start + last.depth := by rw [hmatch]
  omega

end Scan

/-! ### Workers -/

namespace Worker

/-- What a worker finds in the merged scope is found in the folded tokens of the text. -/
theorem found_reset_scan_merged {w : Worker} (hscope : w.matcher.scope = .merged) (text : String) :
    (w.reset text).scan.found =
      Scan.merged w.matcher.dictionary.trie w.matcher.overlap 0 0
        (w.matcher.dictionary.keysOf (tokenize text)) := by
  rw [Dictionary.keysOf, tokenize, List.map_map, scan, reset]
  simp only [Scan.run, hscope]
  rfl

/-- A new worker that has scanned a text. -/
def scanned (m : Matcher) (text : String) : Worker := ((ofMatcher m).reset text).scan

variable {k : Container.Codec} {d : Dictionary}

/-- **The merged scope is a function of the scope of each list.** With overlaps allowed the merged
matches are the foremost ones, one at each token where any list has a match; without overlaps they
are those of the merged matches that keep apart, from left to right. -/
theorem merged_of_perList (hd : Dictionary.Obtained k d) (text : String) :
    (scanned ⟨d, true, .merged⟩ text).found.Pairwise (fun a b => a.start < b.start) ∧
      (∀ start, (∃ m ∈ (scanned ⟨d, true, .merged⟩ text).found, m.start = start) ↔
        ∃ m ∈ (scanned ⟨d, true, .perList⟩ text).found, m.start = start) ∧
      (∀ m, m ∈ (scanned ⟨d, true, .merged⟩ text).found ↔
        Scan.IsForemost (scanned ⟨d, true, .perList⟩ text).found m) ∧
      (∀ m, (scanned ⟨d, true, .merged⟩ text).attributes m =
        (scanned ⟨d, true, .perList⟩ text).attributes m) ∧
      (scanned ⟨d, false, .merged⟩ text).found =
        Scan.apart 0 (scanned ⟨d, true, .merged⟩ text).found ∧
      (scanned ⟨d, false, .merged⟩ text).found.Pairwise fun a b => a.stop ≤ b.start := by
  have hwf := hd.wellFormed
  have hlists := d.length_columns.symm
  have hperList : (scanned ⟨d, true, .perList⟩ text).found =
      Scan.perList d.trie true 0 (List.replicate d.columns.length 0)
        (d.keysOf (tokenize text)) := by
    rw [← hlists]
    exact found_reset_scan rfl text
  have hmerged (overlap : Bool) : (scanned ⟨d, overlap, .merged⟩ text).found =
      Scan.merged d.trie overlap 0 0 (d.keysOf (tokenize text)) :=
    found_reset_scan_merged rfl text
  have hapart : (scanned ⟨d, false, .merged⟩ text).found =
      Scan.apart 0 (scanned ⟨d, true, .merged⟩ text).found := by
    rw [hmerged, hmerged]
    exact Scan.merged_eq_apart 0 0 0 _
  refine ⟨?_, fun start => ?_, fun m => ?_, fun m => rfl, hapart, ?_⟩
  · rw [hmerged]
    exact Scan.pairwise_merged 0 0 _
  · rw [hmerged, hperList]
    exact Scan.exists_mem_merged_iff hwf
  · rw [hmerged, hperList]
    exact Scan.mem_merged_overlap_iff hwf
  · rw [hapart]
    refine Scan.pairwise_apart 0 fun m hm => ?_
    rw [hmerged] at hm
    exact Nat.le_of_lt (Scan.start_lt_stop_of_mem_merged hm)

/-- The longer name wins over the name of a city at the same token, and the city inside it is passed
over. -/
theorem merged_new_york :
    Scan.IsForemost (scanned ⟨DictionaryBuilder.dictionary ⟨false, true⟩ Sample.calls, true, .perList⟩
        "In New York City it is new.").found ⟨1, 4, 1, 3⟩ ∧
      (scanned ⟨DictionaryBuilder.dictionary ⟨false, true⟩ Sample.calls, false, .merged⟩
        "In New York City it is new.").found = [⟨1, 4, 1, 3⟩, ⟨6, 7, 1, 1⟩] := by
  have hobtained : Dictionary.Obtained .standard
      (DictionaryBuilder.dictionary ⟨false, true⟩ Sample.calls) := .built _ _
  have hall : (scanned ⟨DictionaryBuilder.dictionary ⟨false, true⟩ Sample.calls, true, .merged⟩
      "In New York City it is new.").found = [⟨1, 4, 1, 3⟩, ⟨2, 3, 0, 4⟩, ⟨6, 7, 1, 1⟩] := by
    decide +kernel
  obtain ⟨-, -, hforemost, -, hapart, -⟩ :=
    merged_of_perList hobtained "In New York City it is new."
  rw [hall] at hforemost hapart
  refine ⟨(hforemost _).mp List.mem_cons_self, hapart.trans ?_⟩
  decide

end Worker

end AnnotatedText
