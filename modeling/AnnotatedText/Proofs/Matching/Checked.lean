import AnnotatedText.Proofs.Container.RoundTrip
import AnnotatedText.Proofs.Matching.Found

/-!
# Scans through checked accesses

A scan indexes without asking: the node of a hit and of each child, the tokens by their places, the
slots and the last matches by the lists of markers, and the first marker of a node where keys end.
`Worker.scanChecked` makes the same scan through accesses that fail where nothing is there, and is
undefined as soon as one of them fails; `Dictionary.lookupChecked` does the same for a look-up. Both
are always defined and give what the unchecked ones give.

The one thing that this rests on is the well-formedness of the trie, which building and reading both
give: there is a root, no edge leads out of the trie, and markers name declared lists. That nodes
are shared, or out of reach, or that the root has markers, does not matter.

## Main results

* `Trie.hitsFromChecked_eq`, `Trie.findFromChecked_eq`: a walk through a well-formed trie stays in it.
* `Scan.perListChecked_eq`, `Scan.mergedChecked_eq`: so does a scan, and it stays inside its slots.
* `Worker.accesses_in_range`: no access of a look-up, a scan or a match is out of range.
-/

namespace AnnotatedText

/-! ### Walks through a trie -/

/-- A reader of tokens reads what is behind the first one from the next place on. -/
theorem tokens_tail {token? : Nat → Option String} {start : Nat} {token : String}
    {rest : List String}
    (htokens : ∀ i < (token :: rest).length, token? (start + i) = (token :: rest)[i]?) :
    ∀ i < rest.length, token? (start + 1 + i) = rest[i]? := by
  intro i hi
  have := htokens (i + 1) (Nat.succ_lt_succ hi)
  rwa [Nat.add_assoc, Nat.add_comm 1 i]

namespace Trie

/-- The child of a node along a token, if there is one; undefined if there is no such node. -/
def childChecked (t : Trie) (node : Nat) (token : String) : Option (Option Nat) := do
  let n ← t.nodes[node]?
  return (n.edges.find? (·.token == token)).map Edge.child

/-- The node at the end of a token sequence, through checked accesses. -/
def findFromChecked (t : Trie) : Nat → List String → Option (Option Nat)
  | node, [] => some (some node)
  | node, token :: rest => do
    match ← t.childChecked node token with
    | none => return none
    | some next => t.findFromChecked next rest

/-- The places where keys end along the `left` tokens from the one at `depth` on, through checked
accesses; the tokens are given by their places. -/
def hitsFromChecked (t : Trie) (token? : Nat → Option String) : Nat → Nat → Nat → Option (List Hit)
  | 0, _, _ => some []
  | left + 1, depth, node => do
    let token ← token? depth
    match ← t.childChecked node token with
    | none => return []
    | some next =>
      let n ← t.nodes[next]?
      let more ← t.hitsFromChecked token? left (depth + 1) next
      return if n.markers.isEmpty then more else ⟨depth + 1, next⟩ :: more

variable {lists : List (List Column)} {t : Trie}

/-- The edges of a node in the trie are searched without a failing access. -/
theorem childChecked_eq {node : Nat} (h : node < t.size) (token : String) :
    t.childChecked node token = some (t.child? node token) := by
  obtain ⟨n, hn⟩ := exists_node_of_lt h
  simp [childChecked, child?, edgesAt_of_getElem? hn, hn]

/-- **No edge leads out of a well-formed trie.** -/
theorem WellFormed.child?_lt (hwf : t.WellFormed lists) {node next : Nat} {token : String}
    (h : t.child? node token = some next) : next < t.size := by
  obtain ⟨e, he, rfl⟩ := Option.map_eq_some_iff.mp h
  exact hwf.child_lt (List.mem_of_find?_eq_some he)

/-- **A walk along tokens stays inside the trie.** -/
theorem findFromChecked_eq (hwf : t.WellFormed lists) {node : Nat} (h : node < t.size)
    (key : List String) : t.findFromChecked node key = some (t.findFrom node key) := by
  induction key generalizing node with
  | nil => rfl
  | cons token rest ih =>
      rw [findFromChecked, findFrom, childChecked_eq h]
      cases hc : t.child? node token with
      | none => rfl
      | some next => exact ih (hwf.child?_lt hc)

/-- A well-formed trie is not left on the way along a key. -/
theorem findFrom_lt (hwf : t.WellFormed lists) {node last : Nat} (h : node < t.size)
    {key : List String} (hfind : t.findFrom node key = some last) : last < t.size := by
  induction key generalizing node with
  | nil =>
      obtain rfl : node = last := by simpa using hfind
      exact h
  | cons token rest ih =>
      rw [findFrom_cons] at hfind
      obtain ⟨next, hc, hrest⟩ := Option.bind_eq_some_iff.mp hfind
      exact ih (hwf.child?_lt hc) hrest

/-- **A walk that looks for hits stays inside the trie** and inside the tokens. -/
theorem hitsFromChecked_eq (hwf : t.WellFormed lists) {token? : Nat → Option String}
    {depth node : Nat} (h : node < t.size) {tokens : List String}
    (htokens : ∀ i < tokens.length, token? (depth + i) = tokens[i]?) :
    t.hitsFromChecked token? tokens.length depth node = some (t.hitsFrom depth node tokens) := by
  induction tokens generalizing depth node with
  | nil => rfl
  | cons token rest ih =>
      have htoken : token? depth = some token := htokens 0 (Nat.zero_lt_succ _)
      rw [List.length_cons, hitsFromChecked, hitsFrom, htoken]
      simp only [bind, Option.bind, childChecked_eq h]
      cases hc : t.child? node token with
      | none => rfl
      | some next =>
          have hnext := hwf.child?_lt hc
          obtain ⟨n, hn⟩ := exists_node_of_lt hnext
          simp only [hn, ih hnext (tokens_tail htokens), isTerminal, markersAt_of_getElem? hn]
          cases n.markers.isEmpty <;> rfl

/-- The nodes of hits are there. -/
theorem node_lt_of_mem_hits (hwf : t.WellFormed lists) {tokens : List String} {h : Hit}
    (hh : h ∈ t.hits tokens) : h.node < t.size :=
  findFrom_lt hwf hwf.has_root (mem_hits_iff.mp hh).2.2.1

end Trie

/-! ### Scans -/

namespace Scan

/-- Notes a key in the slots of lists; undefined if a list has no slot. -/
def noteChecked (h : Trie.Hit) : Slots → List Marker → Option Slots
  | slots, [] => some slots
  | slots, m :: rest =>
    if m.list < slots.length then noteChecked h (slots.set m.list (some h)) rest else none

/-- Notes the keys found at a token, through checked accesses. -/
def noteAllChecked (t : Trie) : Slots → List Trie.Hit → Option Slots
  | slots, [] => some slots
  | slots, h :: rest => do
    let n ← t.nodes[h.node]?
    let slots ← noteChecked h slots n.markers
    noteAllChecked t slots rest

/-- The matches at a token for the lists from the place `list` on, and where their last matches end
then. Where the last match of a list ends is asked for and put down at the place of the list. -/
def matchListsChecked (overlap : Bool) (start : Nat) :
    Nat → Slots → List Nat → Option (List Match × List Nat)
  | _, [], frees => some ([], frees)
  | list, none :: slots, frees => matchListsChecked overlap start (list + 1) slots frees
  | list, some h :: slots, frees => do
    let free ← frees[list]?
    if overlap ∨ free ≤ start then
      let (ms, frees) ←
        matchListsChecked overlap start (list + 1) slots (frees.set list (start + h.depth))
      return (⟨start, start + h.depth, list, h.node⟩ :: ms, frees)
    else matchListsChecked overlap start (list + 1) slots frees

/-- The matches of each of `count` lists in the `left` tokens from the place `start` on, through
checked accesses. -/
def perListChecked (t : Trie) (overlap : Bool) (count : Nat) (token? : Nat → Option String) :
    Nat → Nat → List Nat → Option (List Match)
  | 0, _, _ => some []
  | left + 1, start, frees => do
    let hits ← t.hitsFromChecked (fun i => token? (start + i)) (left + 1) 0 0
    let slots ← noteAllChecked t (List.replicate count none) hits
    let (ms, frees) ← matchListsChecked overlap start 0 slots frees
    let more ← perListChecked t overlap count token? left (start + 1) frees
    return ms ++ more

/-- The matches for all of `count` lists in the `left` tokens from the place `start` on, through
checked accesses. The keys found are noted in the slots of the lists here as well. -/
def mergedChecked (t : Trie) (overlap : Bool) (count : Nat) (token? : Nat → Option String) :
    Nat → Nat → Nat → Option (List Match)
  | 0, _, _ => some []
  | left + 1, start, free =>
    if overlap ∨ free ≤ start then do
      let hits ← t.hitsFromChecked (fun i => token? (start + i)) (left + 1) 0 0
      let _ ← noteAllChecked t (List.replicate count none) hits
      match hits.getLast? with
      | none => mergedChecked t overlap count token? left (start + 1) free
      | some h =>
        let n ← t.nodes[h.node]?
        let m ← n.markers[0]?
        let more ← mergedChecked t overlap count token? left (start + 1) (start + h.depth)
        return ⟨start, start + h.depth, m.list, h.node⟩ :: more
    else mergedChecked t overlap count token? left (start + 1) free

variable {lists : List (List Column)} {t : Trie} {overlap : Bool}

/-- Noting a hit fails at no list that has a slot. -/
theorem noteChecked_eq (h : Trie.Hit) {slots : Slots} {markers : List Marker}
    (hmarkers : ∀ m ∈ markers, m.list < slots.length) :
    noteChecked h slots markers =
      some (markers.foldl (fun slots m => slots.set m.list (some h)) slots) := by
  induction markers generalizing slots with
  | nil => rfl
  | cons m rest ih =>
      obtain ⟨hm, hrest⟩ := List.forall_mem_cons.mp hmarkers
      rw [noteChecked, if_pos hm, List.foldl_cons]
      exact ih fun other hother => by rw [List.length_set]; exact hrest other hother

/-- **Each list of a marker has a slot.** -/
theorem noteAllChecked_eq (hwf : t.WellFormed lists) {slots : Slots}
    (hslots : slots.length = lists.length) {hits : List Trie.Hit}
    (hhits : ∀ h ∈ hits, h.node < t.size) :
    noteAllChecked t slots hits = some (hits.foldl (note t) slots) := by
  induction hits generalizing slots with
  | nil => rfl
  | cons h rest ih =>
      obtain ⟨hh, hrest⟩ := List.forall_mem_cons.mp hhits
      obtain ⟨n, hn⟩ := Trie.exists_node_of_lt hh
      have hmarkers := Trie.markersAt_of_getElem? hn
      have hnote : noteChecked h slots n.markers = some (note t slots h) := by
        rw [note, hmarkers]
        refine noteChecked_eq h fun m hm => ?_
        rw [hslots]
        exact hwf.lt_of_mem_markersAt (hmarkers ▸ hm)
      rw [noteAllChecked, hn, List.foldl_cons]
      simp only [bind, Option.bind, hnote]
      exact ih (by rw [length_note, hslots]) hrest

/-- **Each slot has a last match beside it.** The lists before the place `list` have had their
turn. -/
theorem matchListsChecked_eq (start : Nat) {before : List Nat} {slots : Slots} {frees : List Nat}
    (h : slots.length = frees.length) :
    matchListsChecked overlap start before.length slots (before ++ frees) =
      some ((matchLists overlap start before.length slots frees).1,
        before ++ (matchLists overlap start before.length slots frees).2) := by
  induction slots generalizing before frees with
  | nil =>
      obtain rfl : frees = [] := List.length_eq_zero_iff.mp h.symm
      rfl
  | cons slot slots ih =>
      cases frees with
      | nil => simp at h
      | cons free frees =>
          -- what a list leaves behind joins what stands before the next one
          have hnext (end' : Nat) :
              matchListsChecked overlap start (before.length + 1) slots (before ++ end' :: frees) =
                some ((matchLists overlap start (before.length + 1) slots frees).1,
                  before ++ end' :: (matchLists overlap start (before.length + 1) slots frees).2) := by
            have hih := @ih (before ++ [end']) frees (Nat.succ.inj h)
            rwa [List.length_append, List.length_singleton, List.append_assoc, List.append_assoc,
              List.singleton_append, List.singleton_append] at hih
          cases slot with
          | none =>
              rw [matchListsChecked, hnext free]
              simp [matchLists, matchList]
          | some hit =>
              have hfree : (before ++ free :: frees)[before.length]? = some free := by simp
              have hset : (before ++ free :: frees).set before.length (start + hit.depth) =
                  before ++ (start + hit.depth) :: frees := by simp
              rw [matchListsChecked, hfree]
              by_cases hstart : overlap = true ∨ free ≤ start
              · simp [hstart, hset, hnext, matchLists, matchList]
              · simp [hstart, hnext, matchLists, matchList]

/-- The hits at a token, through checked accesses to the tokens from it on. -/
theorem hitsFromChecked_drop (hwf : t.WellFormed lists) {token? : Nat → Option String}
    {start : Nat} {tokens : List String}
    (htokens : ∀ i < tokens.length, token? (start + i) = tokens[i]?) :
    t.hitsFromChecked (fun i => token? (start + i)) tokens.length 0 0 = some (t.hits tokens) := by
  refine Trie.hitsFromChecked_eq hwf hwf.has_root fun i hi => ?_
  rw [Nat.zero_add]
  exact htokens i hi

/-- The slots of the lists at a token, through checked accesses. -/
theorem noteAllChecked_hits (hwf : t.WellFormed lists) (tokens : List String) :
    noteAllChecked t (List.replicate lists.length none) (t.hits tokens) =
      some (longest t lists.length (t.hits tokens)) :=
  noteAllChecked_eq hwf List.length_replicate fun _ hh => Trie.node_lt_of_mem_hits hwf hh

/-- **No access of a scan in the scope of each list is out of range.** -/
theorem perListChecked_eq (hwf : t.WellFormed lists) {token? : Nat → Option String} {start : Nat}
    {frees : List Nat} (hfrees : frees.length = lists.length) {tokens : List String}
    (htokens : ∀ i < tokens.length, token? (start + i) = tokens[i]?) :
    perListChecked t overlap lists.length token? tokens.length start frees =
      some (perList t overlap start frees tokens) := by
  induction tokens generalizing start frees with
  | nil => rfl
  | cons token rest ih =>
      have hhits := hitsFromChecked_drop hwf htokens
      have hslots : (longest t lists.length (t.hits (token :: rest))).length = frees.length := by
        rw [length_longest, hfrees]
      have hmatches := @matchListsChecked_eq overlap start [] _ frees hslots
      rw [List.length_nil, List.nil_append, List.nil_append] at hmatches
      have hlength := @length_matchLists overlap start 0 _ frees hslots
      rw [List.length_cons] at hhits ⊢
      rw [perListChecked, hhits]
      simp only [bind, Option.bind, noteAllChecked_hits hwf, hmatches,
        ih (hlength.trans hfrees) (tokens_tail htokens), perList, hfrees]
      rfl

/-- The node of the longest key at a token has a first marker, which makes the match there. -/
theorem exists_first_marker (hwf : t.WellFormed lists) (start : Nat) {tokens : List String}
    {last : Trie.Hit} (hlast : (t.hits tokens).getLast? = some last) :
    ∃ n first, t.nodes[last.node]? = some n ∧ n.markers[0]? = some first ∧
      mergedMatch? t start (t.hits tokens) =
        some ⟨start, start + last.depth, first.list, last.node⟩ := by
  have hmem := List.mem_of_getLast? hlast
  obtain ⟨n, hn⟩ := Trie.exists_node_of_lt (Trie.node_lt_of_mem_hits hwf hmem)
  obtain ⟨m, hm⟩ := Trie.isTerminal_iff.mp (Trie.mem_hits_iff.mp hmem).2.2.2
  obtain ⟨first, others, hmarkers⟩ := List.exists_cons_of_ne_nil (List.ne_nil_of_mem hm)
  refine ⟨n, first, hn, ?_, ?_⟩
  · rw [← Trie.markersAt_of_getElem? hn, hmarkers, List.getElem?_cons_zero]
  · exact mergedMatch?_eq_some_iff.mpr ⟨last, first, others, hlast, hmarkers, rfl⟩

/-- **No access of a scan in the merged scope is out of range**, and a node where keys end has a
first marker. -/
theorem mergedChecked_eq (hwf : t.WellFormed lists) {token? : Nat → Option String}
    {start free : Nat} {tokens : List String}
    (htokens : ∀ i < tokens.length, token? (start + i) = tokens[i]?) :
    mergedChecked t overlap lists.length token? tokens.length start free =
      some (merged t overlap start free tokens) := by
  induction tokens generalizing start free with
  | nil => rfl
  | cons token rest ih =>
      have hhits := hitsFromChecked_drop hwf htokens
      have hnext (free : Nat) :
          mergedChecked t overlap lists.length token? rest.length (start + 1) free =
            some (merged t overlap (start + 1) free rest) := ih (tokens_tail htokens)
      rw [List.length_cons] at hhits ⊢
      rw [mergedChecked, merged]
      by_cases hfree : overlap = true ∨ free ≤ start
      · rw [if_pos hfree, if_pos hfree, hhits]
        simp only [bind, Option.bind, noteAllChecked_hits hwf]
        cases hlast : (t.hits (token :: rest)).getLast? with
        | none =>
            simp only [mergedMatch?, hlast]
            exact hnext free
        | some last =>
            obtain ⟨n, first, hn, hfirst, hmatch⟩ := exists_first_marker hwf start hlast
            simp only [hn, hfirst, hmatch, hnext]
            rfl
      · rw [if_neg hfree, if_neg hfree]
        exact hnext free

end Scan

/-! ### Look-ups -/

namespace Dictionary

/-- The markers at a key, through checked accesses. -/
def lookupChecked (d : Dictionary) (key : List String) : Option (List Marker) := do
  match ← d.trie.findFromChecked 0 (key.map (foldCase d.caseSensitive)) with
  | none => return []
  | some node =>
    let n ← d.trie.nodes[node]?
    return n.markers

/-- **No access of a look-up is out of range.** -/
theorem lookupChecked_eq {d : Dictionary} (hwf : d.trie.WellFormed d.columns) (key : List String) :
    d.lookupChecked key = some (d.lookup key) := by
  rw [lookupChecked, lookup, Trie.find?, Trie.findFromChecked_eq hwf hwf.has_root]
  cases hfind : d.trie.findFrom 0 (key.map (foldCase d.caseSensitive)) with
  | none => rfl
  | some node =>
      obtain ⟨n, hn⟩ := Trie.exists_node_of_lt (Trie.findFrom_lt hwf hwf.has_root hfind)
      simp [hn, Trie.markersAt_of_getElem? hn]

end Dictionary

/-! ### Workers -/

/-- The form under which a token is looked up, through checked accesses to its span and to the text
there. -/
def Sentence.keyChecked (s : Sentence) (caseSensitive : Bool) (i : Nat) : Option String := do
  let span ← s.spans[i]?
  let text ← Text.slice? s.raw span.start span.stop
  return foldCase caseSensitive text

/-- Reading the key of a token of a segmented sentence fails only behind its end. -/
theorem Sentence.keyChecked_segment (text : String) (caseSensitive : Bool) (i : Nat) :
    ((ofText text).segment caseSensitive).keyChecked caseSensitive i =
      ((ofText text).segment caseSensitive).keys[i]? := by
  rw [keyChecked, getElem?_spans_segment, segment, List.getElem?_map, ofText]
  cases ht : (tokens text)[i]? with
  | none => rfl
  | some token =>
      have hslice := slice?_of_mem_tokens (List.mem_of_getElem? ht)
      simp [Token.span, hslice]

namespace Worker

/-- The worker with the matches in its text, found through checked accesses. -/
def scanChecked (w : Worker) : Option Worker := do
  let d := w.matcher.dictionary
  let token? := w.sentence.keyChecked d.caseSensitive
  let found ← match w.matcher.scope with
    | .perList =>
      Scan.perListChecked d.trie w.matcher.overlap d.lists.length token? w.sentence.size 0
        (List.replicate d.lists.length 0)
    | .merged =>
      Scan.mergedChecked d.trie w.matcher.overlap d.lists.length token? w.sentence.size 0 0
  return { w with found := found }

variable {k : Container.Codec} {m : Matcher} {w : Worker}

/-- **No access of a scan is out of range.** -/
theorem scanChecked_eq (hd : Dictionary.Obtained k m.dictionary) (hw : Steady m w) :
    w.scanChecked = some w.scan := by
  have hwf := hd.wellFormed
  have hcount := m.dictionary.length_columns.symm
  have htokens : ∀ i < w.sentence.keys.length,
      w.sentence.keyChecked m.dictionary.caseSensitive (0 + i) = w.sentence.keys[i]? := by
    intro i _
    rw [Nat.zero_add, hw.sentence_eq]
    exact Sentence.keyChecked_segment _ _ i
  rw [scanChecked, scan, hw.matcher_eq, ← hw.length_keys, hcount]
  cases hscope : m.scope with
  | perList =>
      simp only [Scan.perListChecked_eq hwf List.length_replicate htokens, Scan.run, hcount]
      rfl
  | merged =>
      simp only [Scan.mergedChecked_eq hwf htokens, Scan.run]
      rfl

/-- **No access is out of range**, whatever the dictionary, the scope, the overlaps and the texts:
not of a look-up, not of a scan in any state of a worker, and not of a match that it holds. -/
theorem accesses_in_range (hd : Dictionary.Obtained k m.dictionary) (tasks : List Task) :
    (∀ key, m.dictionary.lookupChecked key = some (m.dictionary.lookup key)) ∧
      ((ofMatcher m).performAll tasks).scanChecked =
        some ((ofMatcher m).performAll tasks).scan ∧
      ∀ found ∈ ((ofMatcher m).performAll tasks).found,
        ((ofMatcher m).performAll tasks).InRange found := by
  have hw := steady_performAll m tasks
  exact ⟨Dictionary.lookupChecked_eq hd.wellFormed, scanChecked_eq hd hw,
    fun _ hfound => inRange_of_mem_found hd hw hfound⟩

end Worker

/-- A dictionary that no builder builds: two edges of the root lead to one node, nothing leads to
the node behind the root, and the root has a marker. -/
def Sample.tangled : Dictionary where
  caseSensitive := false
  lists := [⟨"grades", "demo.Grade", [⟨"rank", .integer⟩]⟩, ⟨"letters", "demo.Letter", []⟩]
  trie := ⟨#[⟨[⟨"a", 2⟩, ⟨"b", 2⟩], [⟨1, []⟩]⟩, ⟨[⟨"c", 3⟩], []⟩,
    ⟨[⟨"+", 3⟩], [⟨0, [.integer 2]⟩]⟩, ⟨[], [⟨0, [.integer 1]⟩, ⟨1, []⟩]⟩]⟩
  compress := false

/-- It is read from its container, so no access is out of range in it. -/
theorem Worker.accesses_in_range_tangled :
    Container.Codec.standard.read (Container.Codec.standard.write Sample.tangled) =
        .ok Sample.tangled ∧
      Sample.tangled.lookupChecked ["B", "+"] = some [⟨0, [.integer 1]⟩, ⟨1, []⟩] ∧
      ((ofMatcher ⟨Sample.tangled, true, .merged⟩).performAll
        [.text "A+ b", .scan]).InRange ⟨0, 2, 0, 3⟩ := by
  have hwf : Sample.tangled.trie.WellFormed Sample.tangled.columns :=
    Trie.verify_eq_ok_iff.mp (by cbv)
  have harchive : Container.Codec.standard.decode
      (Container.Codec.standard.encode (Container.content Sample.tangled)) =
        some (Container.content Sample.tangled) := by
    decide +kernel
  have hplain : ¬ Sample.tangled.compress = true := Bool.false_ne_true
  have hread : Container.Codec.standard.read (Container.Codec.standard.write Sample.tangled) =
      .ok Sample.tangled :=
    Container.Codec.read_write hwf harchive (fun h => absurd h hplain) fun h => absurd h hplain
  obtain ⟨hlookup, -, hmatches⟩ := accesses_in_range
    (m := ⟨Sample.tangled, true, .merged⟩) (.read hread) [.text "A+ b", .scan]
  refine ⟨hread, (hlookup _).trans ?_, hmatches _ ?_⟩
  · decide +kernel
  · decide +kernel

end AnnotatedText
