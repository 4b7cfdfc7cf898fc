import AnnotatedText.Proofs.Matching.Projection

/-!
# Lists do not know of each other

In the scope of each list a dictionary of several lists behaves as several dictionaries of one list
that share a pass. Two tries are built, with other nodes at other places, and two scans are made
over them; what they have in common is the map from keys to the attributes of one list. A scan of
one list depends on this map alone: the longest key at a token is found by it, `longest?_congr`, and
so is every match, `scanList_congr`.

## Main results

* `Scan.scanList_congr`: the scan of a list depends only on what the trie has for the list.
* `Worker.sightings_congr`: what two workers see of a list on which their tries agree.
-/

namespace AnnotatedText

namespace Scan

variable {t t' : Trie} {list list' : Nat} {overlap : Bool}

/-- What a hit is to a list: its length and the attributes of the list there. -/
def hitView (t : Trie) (list : Nat) (h : Trie.Hit) : Nat × Option (List Scalar) :=
  (h.depth, Trie.attributesOf (t.markersAt h.node) list)

/-- What a match is to its list: where it begins and ends, and the attributes of the list there. -/
def matchView (t : Trie) (list : Nat) (m : Match) : Nat × Nat × Option (List Scalar) :=
  (m.start, m.stop, Trie.attributesOf (t.markersAt m.node) list)

/-- Two tries **agree** on a list, which may have different places in them, if they have the same
attributes of it at every key. -/
def Agree (t t' : Trie) (list list' : Nat) : Prop :=
  ∀ key, Trie.attributesOf (t.markers key) list = Trie.attributesOf (t'.markers key) list'

/-- Tries that agree on a list have the same keys of it. -/
theorem Agree.hasKey_iff (h : Agree t t' list list') {tokens : List String} {n : Nat} :
    HasKey t tokens list n ↔ HasKey t' tokens list' n := by
  rw [HasKey, HasKey, h]

/-- **The longest key of a list depends only on what the trie has for the list.** -/
theorem longest?_congr (hagree : Agree t t' list list') (tokens : List String) :
    (longest? t (t.hits tokens) list).map (hitView t list) =
      (longest? t' (t'.hits tokens) list').map (hitView t' list') := by
  cases hl : longest? t (t.hits tokens) list with
  | none =>
      have hl' : longest? t' (t'.hits tokens) list' = none := by
        refine longest?_hits_eq_none_iff.mpr fun n hkey => ?_
        exact longest?_hits_eq_none_iff.mp hl n (hagree.hasKey_iff.mpr hkey)
      rw [hl']
      rfl
  | some h =>
      obtain ⟨hfind, hkey, hmax⟩ := longest?_hits_eq_some_iff.mp hl
      cases hl' : longest? t' (t'.hits tokens) list' with
      | none =>
          exact absurd (hagree.hasKey_iff.mp hkey) (longest?_hits_eq_none_iff.mp hl' h.depth)
      | some h' =>
          obtain ⟨hfind', hkey', hmax'⟩ := longest?_hits_eq_some_iff.mp hl'
          have hdepth : h.depth = h'.depth :=
            Nat.le_antisymm (hmax' _ (hagree.hasKey_iff.mp hkey))
              (hmax _ (hagree.hasKey_iff.mpr hkey'))
          have hattributes := hagree (tokens.take h.depth)
          rw [Trie.markers, Trie.markersFrom_of_findFrom hfind, Trie.markers, hdepth,
            Trie.markersFrom_of_findFrom hfind'] at hattributes
          simp [hitView, hdepth, hattributes]

/-- A match at a token depends only on what the longest key is to the list. -/
theorem matchList_congr {slot slot' : Option Trie.Hit} (overlap : Bool) (start free : Nat)
    (h : slot.map (hitView t list) = slot'.map (hitView t' list')) :
    (matchList overlap start list slot free).1.map (matchView t list) =
        (matchList overlap start list' slot' free).1.map (matchView t' list') ∧
      (matchList overlap start list slot free).2 =
        (matchList overlap start list' slot' free).2 := by
  cases slot with
  | none =>
      cases slot' with
      | none => exact ⟨rfl, rfl⟩
      | some hit' => simp at h
  | some hit =>
      cases slot' with
      | none => simp at h
      | some hit' =>
          have hview : hitView t list hit = hitView t' list' hit' := Option.some.inj h
          obtain ⟨hdepth, hattributes⟩ := Prod.mk.inj hview
          by_cases hfree : overlap = true ∨ free ≤ start
          · simp [matchList, hfree, matchView, hdepth, hattributes]
          · simp [matchList, hfree]

/-- **The scan of a list depends only on what the trie has for the list.** -/
theorem scanList_congr (hagree : Agree t t' list list') (start free : Nat)
    (tokens : List String) :
    (scanList t overlap list start free tokens).map (matchView t list) =
      (scanList t' overlap list' start free tokens).map (matchView t' list') := by
  induction tokens generalizing start free with
  | nil => rfl
  | cons token rest ih =>
      obtain ⟨hfound, hfree⟩ := matchList_congr overlap start free
        (longest?_congr hagree (token :: rest))
      rw [scanList, scanList, List.map_append, List.map_append, hfree, ih]
      congr 1
      rw [← Option.toList_map, ← Option.toList_map, hfound]

end Scan

/-- A match as it **shows in a document**: its tokens, its bytes, its text and its attributes, and
nothing of the dictionary that it was found with. -/
structure Sighting where
  start : Nat
  stop : Nat
  span : Span
  surface : String
  attributes : List Scalar
  deriving DecidableEq

namespace Worker

/-- What a match shows. -/
def sighting (w : Worker) (m : Match) : Sighting :=
  ⟨m.start, m.stop, w.byteSpan m, w.surface m, w.attributes m⟩

/-- What a worker sees of a list, in order. -/
def sightings (w : Worker) (list : Nat) : List Sighting :=
  (w.found.filter fun m => m.list = list).map w.sighting

/-- What a match of a list shows, if only the text and what the match is to its list are known. -/
def sightingOf (s : Sentence) (view : Nat × Nat × Option (List Scalar)) : Sighting :=
  let span := (s.byteSpan? view.1 view.2.1).getD ⟨0, 0⟩
  ⟨view.1, view.2.1, span, (Text.slice? s.raw span.start span.stop).getD "", view.2.2.getD []⟩

/-- A sighting is told by the sentence and by what the match is to its list. -/
theorem sighting_eq (w : Worker) (m : Match) :
    w.sighting m = sightingOf w.sentence (Scan.matchView w.matcher.dictionary.trie m.list m) :=
  rfl

/-- What a worker sees of a list is settled by the text and the scan of the list alone. -/
theorem sightings_reset_scan {w : Worker} (hscope : w.matcher.scope = .perList) (text : String)
    {list : Nat} (hlist : list < w.matcher.dictionary.lists.length) :
    (w.reset text).scan.sightings list =
      ((Scan.scanList w.matcher.dictionary.trie w.matcher.overlap list 0 0
        (w.matcher.dictionary.keysOf (tokenize text))).map
          (Scan.matchView w.matcher.dictionary.trie list)).map
            (sightingOf (w.reset text).sentence) := by
  rw [sightings, found_reset_scan hscope,
    Scan.filter_perList (List.getElem?_replicate_of_lt hlist), List.map_map]
  refine List.map_congr_left fun m hm => ?_
  obtain ⟨-, hl⟩ := Scan.bounds_of_mem_scanList hm
  rw [sighting_eq, hl]
  rfl

/-- Two workers see the same of a list if their tries agree on it. -/
theorem sightings_congr {w v : Worker} (hw : w.matcher.scope = .perList)
    (hv : v.matcher.scope = .perList) (hoverlap : w.matcher.overlap = v.matcher.overlap)
    (hcase : w.matcher.dictionary.caseSensitive = v.matcher.dictionary.caseSensitive)
    {list list' : Nat} (hlist : list < w.matcher.dictionary.lists.length)
    (hlist' : list' < v.matcher.dictionary.lists.length)
    (hagree : Scan.Agree w.matcher.dictionary.trie v.matcher.dictionary.trie list list')
    (text : String) :
    (w.reset text).scan.sightings list = (v.reset text).scan.sightings list' := by
  have hsentence : (w.reset text).sentence = (v.reset text).sentence := by
    rw [reset, reset, hcase]
  have hkeys : w.matcher.dictionary.keysOf (tokenize text) =
      v.matcher.dictionary.keysOf (tokenize text) := by
    rw [Dictionary.keysOf, Dictionary.keysOf, hcase]
  rw [sightings_reset_scan hw text hlist, sightings_reset_scan hv text hlist', hoverlap, hkeys,
    hsentence, Scan.scanList_congr hagree]

/-- With one list, all matches are of this list. -/
theorem sightings_zero {w : Worker} (hscope : w.matcher.scope = .perList)
    (hone : w.matcher.dictionary.lists.length = 1) (text : String) :
    (w.reset text).scan.sightings 0 = (w.reset text).scan.found.map (w.reset text).scan.sighting := by
  have hall : ∀ m ∈ (w.reset text).scan.found, m.list = 0 := by
    rw [found_reset_scan hscope]
    intro m hm
    obtain ⟨-, hlt⟩ := Scan.bounds_of_mem_perList hm
    rw [List.length_replicate, hone] at hlt
    omega
  rw [sightings, List.filter_eq_self.mpr (by simpa using hall)]

/-- **A list is found as if it were the only one.** Whatever else was added before and behind it, in
the scope of each list its matches show what the matches of a dictionary built from it alone show,
in the same order. -/
theorem sightings_alone (options : DictionaryOptions) {calls : List Call} {i : Nat} {c : Call}
    (hc : (Call.accepted calls)[i]? = some c) (overlap : Bool) {w v : Worker}
    (hw : w.matcher = ⟨DictionaryBuilder.dictionary options calls, overlap, .perList⟩)
    (hv : v.matcher = ⟨DictionaryBuilder.dictionary options [c], overlap, .perList⟩)
    (text : String) :
    (w.reset text).scan.sightings i = (v.reset text).scan.found.map (v.reset text).scan.sighting := by
  obtain ⟨hi, hci⟩ := List.getElem?_eq_some_iff.mp hc
  have hmem : c ∈ Call.accepted calls := hci ▸ List.getElem_mem hi
  have haccepted : c.isAccepted = true := (List.mem_filter.mp (List.mem_of_mem_take hmem)).2
  have halone : Call.accepted [c] = [c] := by
    have hroom : [c].length ≤ placeLimit := (by decide : 1 ≤ placeLimit)
    rw [Call.accepted_eq_filter hroom, List.filter_cons_of_pos haccepted, List.filter_nil]
  have hone : v.matcher.dictionary.lists.length = 1 := by
    simp [hv, DictionaryBuilder.lists_dictionary, halone]
  have hagree : Scan.Agree w.matcher.dictionary.trie v.matcher.dictionary.trie i 0 := by
    intro key
    rw [hw, hv, DictionaryBuilder.attributesOf_markers_dictionary,
      DictionaryBuilder.attributesOf_markers_dictionary, hc, halone]
    rfl
  rw [← sightings_zero (by rw [hv]) hone]
  refine sightings_congr (by rw [hw]) (by rw [hv]) (by rw [hw, hv]) ?_ ?_ (by omega) hagree text
  · rw [hw, hv, DictionaryBuilder.caseSensitive_dictionary,
      DictionaryBuilder.caseSensitive_dictionary]
  · simpa [hw, DictionaryBuilder.lists_dictionary] using hi

/-- The words are found as without the cities, with which they share tokens. -/
theorem sightings_words :
    ((Sample.worker Sample.calls).reset "In New York City it is new.").scan.sightings 1 =
      ((Sample.worker [Sample.words]).reset "In New York City it is new.").scan.found.map
        ((Sample.worker [Sample.words]).reset "In New York City it is new.").scan.sighting := by
  have hcities : Sample.cities.isAccepted = true := by decide +kernel
  have huntyped : Sample.untyped.isAccepted = false := by decide +kernel
  have hwords : Sample.words.isAccepted = true := by decide +kernel
  have haccepted : (Call.accepted Sample.calls)[1]? = some Sample.words := by
    rw [Call.accepted_eq_filter (by decide)]
    simp [Sample.calls, hcities, huntyped, hwords]
  have hw : (Sample.worker Sample.calls).matcher =
      ⟨DictionaryBuilder.dictionary ⟨false, true⟩ Sample.calls, false, .perList⟩ := rfl
  have hv : (Sample.worker [Sample.words]).matcher =
      ⟨DictionaryBuilder.dictionary ⟨false, true⟩ [Sample.words], false, .perList⟩ := rfl
  exact sightings_alone ⟨false, true⟩ haccepted false hw hv "In New York City it is new."

end Worker

end AnnotatedText
