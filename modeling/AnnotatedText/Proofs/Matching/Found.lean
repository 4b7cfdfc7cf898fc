import AnnotatedText.Proofs.Matching.Merged
import AnnotatedText.Proofs.Sentence.Spans

/-!
# What a worker holds

A worker is put to texts and scans in any order, and holds the matches of its last scan or, after a
text that it has not scanned yet, none. In every state its tokens are those of its text, and each of
its matches is **backed** by the trie, `Scan.Backed`: it covers at least one token and none that is
not there, its tokens lead to its node, and its list has a marker there. Both scopes give backed
matches only, and no more than that is needed for every access to a match.

## Main results

* `Scan.backed_of_mem_run`: the matches of a scan are backed.
* `Worker.steady_performAll`: what a worker holds after any tasks.
* `Worker.performAll_scan`: of the tasks before a scan, it sees the last text only.
* `Worker.inRange_of_mem_found`: every access to a match of a worker is in range.
-/

namespace AnnotatedText

namespace Scan

/-- A match is **backed** by a trie in the tokens that are looked up. -/
structure Backed (t : Trie) (keys : List String) (m : Match) : Prop where
  start_lt_stop : m.start < m.stop
  stop_le : m.stop ≤ keys.length
  find?_eq : t.find? ((keys.drop m.start).take (m.stop - m.start)) = some m.node
  has_marker : ∃ marker ∈ t.markersAt m.node, marker.list = m.list

variable {t : Trie} {overlap : Bool} {keys : List String}

/-- A match at a hit of one of the lists there is backed. -/
theorem backed_of_mem_hits {start list : Nat} {h : Trie.Hit} (hh : h ∈ t.hits (keys.drop start))
    (hmarker : ∃ marker ∈ t.markersAt h.node, marker.list = list) :
    Backed t keys ⟨start, start + h.depth, list, h.node⟩ := by
  obtain ⟨hpos, hle, hfind, -⟩ := Trie.mem_hits_iff.mp hh
  rw [List.length_drop] at hle
  refine ⟨?_, ?_, ?_, hmarker⟩
  · show start < start + h.depth
    omega
  · show start + h.depth ≤ keys.length
    omega
  · show t.find? ((keys.drop start).take (start + h.depth - start)) = some h.node
    rwa [Nat.add_sub_cancel_left]

/-- A match of the scan for each list is backed by the trie. -/
theorem backed_of_mem_perList {count : Nat} {m : Match}
    (h : m ∈ perList t overlap 0 (List.replicate count 0) keys) : Backed t keys m := by
  obtain ⟨-, ⟨hit, hlongest, hmatch⟩, -⟩ := mem_perList_iff.mp h
  rw [longest?] at hlongest
  have hhit := List.mem_reverse.mp (List.mem_of_find?_eq_some hlongest)
  have hsome := List.find?_some hlongest
  rw [hmatch]
  exact backed_of_mem_hits hhit (Trie.isSome_attributesOf_iff.mp hsome)

/-- A match of the merged scan is backed by the trie. -/
theorem backed_of_mem_merged {m : Match} (h : m ∈ merged t overlap 0 0 keys) :
    Backed t keys m := by
  have hmem : m ∈ merged t true 0 0 keys := by
    cases overlap with
    | true => exact h
    | false =>
        rw [merged_eq_apart 0 0 0] at h
        exact (apart_sublist 0 _).subset h
  obtain ⟨-, hm⟩ := mem_merged_iff.mp hmem
  rw [Nat.sub_zero] at hm
  obtain ⟨last, first, rest, hlast, hmarkers, hmatch⟩ := mergedMatch?_eq_some_iff.mp hm
  have hfirst : first ∈ t.markersAt last.node := by rw [hmarkers]; exact List.mem_cons_self
  rw [hmatch]
  exact backed_of_mem_hits (List.mem_of_getLast? hlast) ⟨first, hfirst, rfl⟩

/-- **The matches of a scan are backed**, in both scopes. -/
theorem backed_of_mem_run {d : Dictionary} {scope : MatchScope} {m : Match}
    (h : m ∈ run d scope overlap keys) : Backed d.trie keys m := by
  cases scope with
  | perList => exact backed_of_mem_perList h
  | merged => exact backed_of_mem_merged h

/-- The node of a backed match is there. -/
theorem Backed.exists_node {m : Match} (h : Backed t keys m) :
    ∃ n, t.nodes[m.node]? = some n ∧ t.markersAt m.node = n.markers := by
  obtain ⟨marker, hmarker, -⟩ := h.has_marker
  unfold Trie.markersAt at hmarker ⊢
  cases hn : t.nodes[m.node]? with
  | none => simp [hn] at hmarker
  | some n => exact ⟨n, rfl, rfl⟩

end Scan

namespace Worker

/-- What a worker is put to. -/
inductive Task where
  | text (text : String)
  | scan
  deriving DecidableEq

/-- The worker after a task. -/
def perform (w : Worker) : Task → Worker
  | .text text => w.reset text
  | .scan => w.scan

/-- The worker after several tasks. -/
def performAll (w : Worker) : List Task → Worker
  | [] => w
  | task :: rest => (w.perform task).performAll rest

/-- **What a worker holds** in every state: the tokens of its text, and the matches of a scan of
them or none. -/
structure Steady (m : Matcher) (w : Worker) : Prop where
  matcher_eq : w.matcher = m
  sentence_eq : w.sentence = (Sentence.ofText w.sentence.raw).segment m.dictionary.caseSensitive
  found_eq : w.found = [] ∨ w.found = Scan.run m.dictionary m.scope m.overlap w.sentence.keys

theorem steady_ofMatcher (m : Matcher) : Steady m (ofMatcher m) := ⟨rfl, rfl, Or.inl rfl⟩

/-- A task leaves a worker steady. -/
theorem Steady.perform {m : Matcher} {w : Worker} (h : Steady m w) (task : Task) :
    Steady m (w.perform task) := by
  cases task with
  | text text =>
      refine ⟨h.matcher_eq, ?_, Or.inl rfl⟩
      rw [← h.matcher_eq]
      rfl
  | scan =>
      refine ⟨h.matcher_eq, h.sentence_eq, Or.inr ?_⟩
      rw [← h.matcher_eq]
      rfl

/-- A worker stays steady whatever it is put to. -/
theorem Steady.performAll {m : Matcher} {w : Worker} (h : Steady m w) (tasks : List Task) :
    Steady m (w.performAll tasks) := by
  induction tasks generalizing w with
  | nil => exact h
  | cons task rest ih => exact ih (h.perform task)

/-- **What a worker holds after any tasks.** -/
theorem steady_performAll (m : Matcher) (tasks : List Task) :
    Steady m ((ofMatcher m).performAll tasks) :=
  (steady_ofMatcher m).performAll tasks

/-- The last text among tasks. -/
def lastText? : List Task → Option String
  | [] => none
  | .text text :: rest => (lastText? rest).or (some text)
  | .scan :: rest => lastText? rest

/-- Tasks may be done in two turns. -/
theorem performAll_append (w : Worker) (tasks more : List Task) :
    w.performAll (tasks ++ more) = (w.performAll tasks).performAll more := by
  induction tasks generalizing w with
  | nil => rfl
  | cons task rest ih => exact ih (w.perform task)

/-- The sentence of a worker is that of the last text. -/
theorem sentence_performAll (w : Worker) (tasks : List Task) :
    (w.performAll tasks).sentence = ((lastText? tasks).map fun text =>
      (Sentence.ofText text).segment w.matcher.dictionary.caseSensitive).getD w.sentence := by
  induction tasks generalizing w with
  | nil => rfl
  | cons task rest ih =>
      rw [performAll, ih]
      cases task with
      | text text =>
          rw [lastText?]
          cases lastText? rest <;> rfl
      | scan => rfl

/-- **A scan sees the last text and nothing else of the tasks before it.** -/
theorem performAll_scan (m : Matcher) (tasks : List Task) :
    (ofMatcher m).performAll (tasks ++ [.scan]) =
      (ofMatcher m).performAll ((lastText? tasks).toList.map .text ++ [.scan]) := by
  have hlast : lastText? ((lastText? tasks).toList.map .text) = lastText? tasks := by
    cases lastText? tasks <;> rfl
  have hscan (tasks : List Task) : (ofMatcher m).performAll (tasks ++ [.scan]) =
      scan ⟨m, ((lastText? tasks).map fun text =>
        (Sentence.ofText text).segment m.dictionary.caseSensitive).getD .empty, []⟩ := by
    have hmatcher := (steady_performAll m tasks).matcher_eq
    have hsentence := sentence_performAll (ofMatcher m) tasks
    rw [performAll_append]
    simp only [performAll, perform, scan, hmatcher, hsentence]
    rfl
  rw [hscan, hscan, hlast]

namespace Steady

variable {m : Matcher} {w : Worker}

/-- A steady worker has a key for each token. -/
theorem length_keys (h : Steady m w) : w.sentence.keys.length = w.sentence.size := by
  rw [h.sentence_eq, Sentence.size_segment, Sentence.segment, List.length_map, Sentence.ofText]

/-- The matches of a worker are backed. -/
theorem backed (h : Steady m w) {found : Match} (hfound : found ∈ w.found) :
    Scan.Backed m.dictionary.trie w.sentence.keys found := by
  rcases h.found_eq with hnone | hrun
  · rw [hnone] at hfound
    exact absurd hfound List.not_mem_nil
  · rw [hrun] at hfound
    exact Scan.backed_of_mem_run hfound

end Steady

/-! ### Matches of a worker -/

/-- **Every access to a match is in range**: its tokens, its bytes in the text, its list, its node,
and the marker of its list there, whose attributes fit the columns of the list. -/
structure InRange (w : Worker) (m : Match) : Prop where
  start_lt_stop : m.start < m.stop
  stop_le : m.stop ≤ w.sentence.size
  byteSpan?_eq : w.sentence.byteSpan? m.start m.stop = some (w.byteSpan m)
  slice?_eq : Text.slice? w.sentence.raw (w.byteSpan m).start (w.byteSpan m).stop =
    some (w.surface m)
  marker_mem : ∃ n, w.matcher.dictionary.trie.nodes[m.node]? = some n ∧
    ⟨m.list, w.attributes m⟩ ∈ n.markers
  list?_eq : ∃ l, w.list? m = some l ∧ fitsColumns (w.attributes m) l.columns = true

variable {k : Container.Codec} {m : Matcher} {w : Worker}

/-- **Every access to a match of a worker is in range.** -/
theorem inRange_of_mem_found (hd : Dictionary.Obtained k m.dictionary) (hw : Steady m w)
    {found : Match} (hfound : found ∈ w.found) : w.InRange found := by
  have hbacked := hw.backed hfound
  have hstop : found.stop ≤ w.sentence.size := hw.length_keys ▸ hbacked.stop_le
  obtain ⟨span, surface, hspan, hslice⟩ : ∃ span surface,
      w.sentence.byteSpan? found.start found.stop = some span ∧
        Text.slice? w.sentence.raw span.start span.stop = some surface := by
    rw [hw.sentence_eq] at hstop ⊢
    exact Sentence.exists_byteSpan? hbacked.start_lt_stop hstop
  have hbyteSpan : w.byteSpan found = span := by rw [byteSpan, hspan, Option.getD_some]
  have hsurface : w.surface found = surface := by
    rw [Worker.surface]
    simp only [hbyteSpan, hslice, Option.getD_some]
  obtain ⟨marker, hmarker, hlist⟩ := hbacked.has_marker
  obtain ⟨n, hn, hmarkers⟩ := hbacked.exists_node
  have hattributes : w.attributes found = marker.attributes := by
    rw [attributes, hw.matcher_eq, ← hlist, hd.wellFormed.attributesOf_markersAt hmarker,
      Option.getD_some]
  have hmem : (⟨found.list, w.attributes found⟩ : Marker) ∈ n.markers := by
    rw [← hlist, hattributes, ← hmarkers]
    exact hmarker
  obtain ⟨columns, hcolumns, hfits⟩ :=
    (hd.wellFormed.node_wellFormed found.node n hn).markers_fit.fits _ hmem
  obtain ⟨l, hl, rfl⟩ : ∃ l, m.dictionary.lists[found.list]? = some l ∧ l.columns = columns := by
    rw [Dictionary.columns, List.getElem?_map] at hcolumns
    exact Option.map_eq_some_iff.mp hcolumns
  refine ⟨hbacked.start_lt_stop, hstop, by rw [hspan, hbyteSpan], ?_, ⟨n, ?_, hmem⟩, l, ?_, hfits⟩
  · rw [hbyteSpan, hsurface, hslice]
  · rw [hw.matcher_eq, hn]
  · rw [list?, hw.matcher_eq, hl]

end Worker

end AnnotatedText
