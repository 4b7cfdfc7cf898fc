import AnnotatedText.Proofs.Matching.Found
import AnnotatedText.Proofs.Sentence.Stretches

/-!
# Surfaces of matches

A match is reported with its surface, the text from its first token to its last one. That text can
stand for the match: it is cut into the tokens that the match covers, so it leads to the node of the
match when it is looked up and when it is scanned. Nothing else can be found in it for the same list
that is longer, and nothing in front of it that would keep the list from matching.

Whether the tokens were folded makes no difference, since each is folded on its own.

## Main results

* `Worker.Steady.tokenize_surface`: the tokens of a surface are those of the match.
* `Scan.mem_perList_whole`: a key is found as a whole in its own tokens.
* `Worker.exists_whole_match`: so is a surface when it is scanned alone.
* `Worker.surface_stands_for_match`: a match is looked up and found by its surface.
-/

namespace AnnotatedText

/-- The slice from the beginning to the end is the whole text. -/
theorem Text.slice?_whole (s : String) : Text.slice? s 0 (Text.byteLength s.toList) = some s := by
  have hslice : Text.sliceChars? s.toList 0 (Text.byteLength s.toList) = some s.toList :=
    Text.sliceChars?_eq_some_iff.mpr ⟨[], [], by simp, rfl, Nat.zero_add _⟩
  rw [Text.slice?, hslice, Option.map_some, String.ofList_toList]

namespace Scan

variable {t : Trie}

/-- The longest key in a sequence of tokens that is a key of the list itself is the whole sequence. -/
theorem longest?_whole {keys : List String} {list node : Nat} (hpos : 0 < keys.length)
    (hfind : t.find? keys = some node) (hmarker : ∃ marker ∈ t.markersAt node, marker.list = list) :
    longest? t (t.hits keys) list = some ⟨keys.length, node⟩ := by
  have hwhole : t.find? (keys.take keys.length) = some node := by rwa [List.take_length]
  refine longest?_hits_eq_some_iff.mpr ⟨hwhole, ⟨hpos, Nat.le_refl _, ?_⟩, ?_⟩
  · rw [Trie.markers, Trie.markersFrom_of_findFrom hwhole]
    exact Trie.isSome_attributesOf_iff.mpr hmarker
  · rintro n ⟨-, hle, -⟩
    exact hle

/-- **A key is found as a whole in its own tokens**, whether overlaps are allowed or not: nothing
begins before it. -/
theorem mem_perList_whole {keys : List String} {list node count : Nat} (overlap : Bool)
    (hpos : 0 < keys.length) (hfind : t.find? keys = some node)
    (hmarker : ∃ marker ∈ t.markersAt node, marker.list = list) (hlist : list < count) :
    ⟨0, keys.length, list, node⟩ ∈ perList t overlap 0 (List.replicate count 0) keys := by
  refine mem_perList_iff.mpr ⟨hlist, ⟨⟨keys.length, node⟩, ?_, ?_⟩, Or.inr ?_⟩
  · exact longest?_whole hpos hfind hmarker
  · rw [Nat.zero_add]
  · intro p hp
    exact absurd hp.begins_before (Nat.not_lt_zero _)

end Scan

namespace Worker

variable {k : Container.Codec} {m : Matcher} {w : Worker} {found : Match}

/-- The surface of a match is the slice of the text at its bytes. -/
theorem surface_of_byteSpan {span : Span} {surface : String} (hspan : w.byteSpan found = span)
    (hslice : Text.slice? w.sentence.raw span.start span.stop = some surface) :
    w.surface found = surface := by
  rw [Worker.surface]
  simp only [hspan, hslice, Option.getD_some]

/-- The keys that a worker holds are the folded tokens of its text. -/
theorem Steady.keys_eq (hw : Steady m w) :
    w.sentence.keys = m.dictionary.keysOf (tokenize w.sentence.raw) := by
  rw [hw.sentence_eq, Dictionary.keysOf, tokenize, List.map_map]
  rfl

/-- **The tokens of a surface are those of the match.** -/
theorem Steady.tokenize_surface (hw : Steady m w) (hfound : w.InRange found) :
    tokenize (w.surface found) =
      ((tokenize w.sentence.raw).drop found.start).take (found.stop - found.start) := by
  have hspan := hfound.byteSpan?_eq
  rw [hw.sentence_eq] at hspan
  exact Sentence.tokenize_of_byteSpan? hfound.start_lt_stop hspan hfound.slice?_eq

/-- There are as many as the match covers. -/
theorem Steady.length_tokenize_surface (hw : Steady m w) (hfound : w.InRange found) :
    (tokenize (w.surface found)).length = found.stop - found.start := by
  have hstop : found.stop ≤ (tokenize w.sentence.raw).length := by
    have hle := hfound.stop_le
    rwa [← hw.length_keys, hw.keys_eq, Dictionary.keysOf, List.length_map] at hle
  rw [hw.tokenize_surface hfound, List.length_take, List.length_drop]
  omega

/-- They lead to the node of the match. -/
theorem Steady.find?_surface (hd : Dictionary.Obtained k m.dictionary) (hw : Steady m w)
    (hfound : found ∈ w.found) :
    m.dictionary.trie.find? (m.dictionary.keysOf (tokenize (w.surface found))) =
      some found.node := by
  have hfind := (hw.backed hfound).find?_eq
  rw [hw.keys_eq, Dictionary.keysOf, ← List.map_drop, ← List.map_take] at hfind
  rwa [hw.tokenize_surface (inRange_of_mem_found hd hw hfound), Dictionary.keysOf]

/-- They cover the whole surface. -/
theorem Steady.byteSpan?_surface (hw : Steady m w) (hfound : w.InRange found) :
    ((Sentence.ofText (w.surface found)).segment m.dictionary.caseSensitive).byteSpan? 0
        (tokenize (w.surface found)).length =
      some ⟨0, Text.byteLength (w.surface found).toList⟩ := by
  have hspan := hfound.byteSpan?_eq
  rw [hw.sentence_eq] at hspan
  rw [hw.length_tokenize_surface hfound]
  exact Sentence.byteSpan?_of_stretch hfound.start_lt_stop hspan hfound.slice?_eq

/-- **A surface is found as a whole** when it is scanned alone, with what the match has. -/
theorem exists_whole_match (hd : Dictionary.Obtained k m.dictionary) (hw : Steady m w)
    (hfound : found ∈ w.found) (overlap : Bool) {again : Worker}
    (hagain : again = scanned ⟨m.dictionary, overlap, .perList⟩ (w.surface found)) :
    ∃ whole ∈ again.found, whole.list = found.list ∧ whole.start = 0 ∧
      whole.stop = (tokenize (w.surface found)).length ∧
      again.byteSpan whole = ⟨0, Text.byteLength (w.surface found).toList⟩ ∧
      again.surface whole = w.surface found ∧ again.attributes whole = w.attributes found := by
  have hin := inRange_of_mem_found hd hw hfound
  have hfind := hw.find?_surface hd hfound
  have hmarker := (hw.backed hfound).has_marker
  have hlist : found.list < m.dictionary.lists.length := by
    obtain ⟨l, hl, -⟩ := hin.list?_eq
    rw [list?, hw.matcher_eq] at hl
    exact (List.getElem?_eq_some_iff.mp hl).1
  have hkeys : (m.dictionary.keysOf (tokenize (w.surface found))).length =
      (tokenize (w.surface found)).length := by rw [Dictionary.keysOf, List.length_map]
  have hpos : 0 < (m.dictionary.keysOf (tokenize (w.surface found))).length := by
    rw [hkeys, hw.length_tokenize_surface hin]
    have := hin.start_lt_stop
    omega
  have hspan : again.byteSpan ⟨0, (tokenize (w.surface found)).length, found.list, found.node⟩ =
      ⟨0, Text.byteLength (w.surface found).toList⟩ := by
    rw [hagain]
    exact congrArg (Option.getD · ⟨0, 0⟩) (hw.byteSpan?_surface hin)
  have hraw : again.sentence.raw = w.surface found := by rw [hagain]; rfl
  refine ⟨⟨0, (tokenize (w.surface found)).length, found.list, found.node⟩, ?_, rfl, rfl, rfl,
    hspan, ?_, ?_⟩
  · rw [hagain, scanned, found_reset_scan rfl, ← hkeys]
    exact Scan.mem_perList_whole overlap hpos hfind hmarker hlist
  · refine surface_of_byteSpan hspan ?_
    rw [hraw]
    exact Text.slice?_whole (w.surface found)
  · rw [hagain, attributes, attributes, hw.matcher_eq]
    rfl

/-- **The surface stands for the match**, in every state of a worker. It has as many tokens as the
match; looking them up finds the marker of the match's list with the attributes of the match; and in
a scan of the surface alone, in the scope of each list, the list matches from the first token to the
last one and from the first byte to the last one, with the same attributes. -/
theorem surface_stands_for_match (hd : Dictionary.Obtained k m.dictionary) (tasks : List Task)
    (hw : (ofMatcher m).performAll tasks = w) (hfound : found ∈ w.found) :
    (tokenize (w.surface found)).length = found.stop - found.start ∧
      ⟨found.list, w.attributes found⟩ ∈ m.dictionary.lookup (tokenize (w.surface found)) ∧
      ∀ overlap again, again = scanned ⟨m.dictionary, overlap, .perList⟩ (w.surface found) →
        ∃ whole ∈ again.found, whole.list = found.list ∧ whole.start = 0 ∧
          whole.stop = (tokenize (w.surface found)).length ∧
          again.byteSpan whole = ⟨0, Text.byteLength (w.surface found).toList⟩ ∧
          again.surface whole = w.surface found ∧ again.attributes whole = w.attributes found := by
  have hsteady : Steady m w := hw ▸ steady_performAll m tasks
  have hin := inRange_of_mem_found hd hsteady hfound
  refine ⟨hsteady.length_tokenize_surface hin, ?_, ?_⟩
  · obtain ⟨n, hn, hmarker⟩ := hin.marker_mem
    rw [Dictionary.lookup_eq, Trie.markers, ← Dictionary.keysOf,
      Trie.markersFrom_of_findFrom (hsteady.find?_surface hd hfound), Trie.markersAt,
      ← hsteady.matcher_eq, hn]
    exact hmarker
  · intro overlap again hagain
    exact exists_whole_match hd hsteady hfound overlap hagain

/-- The name of a city with a blank in it is found in itself. -/
theorem surface_new_york :
    ∃ w, (Sample.worker Sample.calls).performAll [.text "In NEW  York City it is new.", .scan] = w ∧
      w.surface ⟨1, 3, 0, 2⟩ = "NEW  York" ∧
      ⟨0, [.double ⟨0x4088600000000000⟩]⟩ ∈
        (Sample.worker Sample.calls).matcher.dictionary.lookup (tokenize "NEW  York") ∧
      ∃ whole ∈ (scanned (Sample.worker Sample.calls).matcher "NEW  York").found,
        whole.list = 0 ∧ whole.start = 0 ∧ whole.stop = 2 := by
  obtain ⟨w, hw⟩ : ∃ w, (Sample.worker Sample.calls).performAll
      [.text "In NEW  York City it is new.", .scan] = w := ⟨_, rfl⟩
  have hobtained : Dictionary.Obtained .standard (Sample.worker Sample.calls).matcher.dictionary :=
    .built _ _
  have hfound : (⟨1, 3, 0, 2⟩ : Match) ∈ w.found := by
    rw [← hw]
    decide +kernel
  have hsurface : w.surface ⟨1, 3, 0, 2⟩ = "NEW  York" := by
    rw [← hw]
    decide +kernel
  have hattributes : w.attributes ⟨1, 3, 0, 2⟩ = [.double ⟨0x4088600000000000⟩] := by
    rw [← hw]
    decide +kernel
  obtain ⟨hlength, hlookup, hscan⟩ := surface_stands_for_match
    (m := (Sample.worker Sample.calls).matcher) hobtained
      [.text "In NEW  York City it is new.", .scan] hw hfound
  rw [hsurface] at hlength hlookup hscan
  rw [hattributes] at hlookup
  obtain ⟨whole, hmem, hlist, hstart, hstop, -⟩ := hscan false _ rfl
  exact ⟨w, hw, hsurface, hlookup, whole, hmem, hlist, hstart, hstop.trans hlength⟩

end Worker

end AnnotatedText
