import AnnotatedText.Proofs.Matching.Checked
import AnnotatedText.Proofs.Sentence.Buffer

/-!
# Workers that are used again

A worker that scans many texts keeps its storage from one text to the next: the buffer of the
sentence, the matches, a slot with the longest key of each list, and for each list where its last
match ends. `Workbench` is a worker with this storage, and each step empties by itself what it is to
fill. A scan empties the slots at every token that it looks at and not before, so after a text without
tokens they still hold what an earlier text left there. The merged scope has no counter of its own: it
uses the one of the first list.

What a workbench **shows**, `Workbench.view`, is all that is read of a worker: its dictionary, its
sentence and its matches, from which come the bytes, the text, the list and the attributes of a match.
A workbench shows at every time the worker that has been put to the same tasks and keeps nothing,
`Workbench.view_performAll`, and none of its accesses is out of range. So an earlier text cannot be
told from what it shows.

## Main results

* `Workbench.exists_scanFrom_perList`, `Workbench.exists_scanFrom_merged`: a scan with kept storage.
* `Workbench.view_performAll`: what a workbench shows after any tasks.
* `Workbench.shows_last_text_only`: a workbench that is used again is like a new one.
-/

namespace AnnotatedText

/-- A worker with all that it keeps from text to text. -/
structure Workbench where
  matcher : Matcher
  buffer : SentenceBuffer
  found : List Match
  longest : Scan.Slots
  free : List Nat
  deriving DecidableEq

namespace Workbench

open Worker (Task Steady)

/-- A workbench as it is made: each list has a slot and a last end. -/
def ofMatcher (m : Matcher) : Workbench where
  matcher := m
  buffer := .empty
  found := []
  longest := List.replicate m.dictionary.lists.length none
  free := List.replicate m.dictionary.lists.length 0

/-- Puts another text in. -/
def reset (b : Workbench) (text : String) : Option Workbench := do
  let buffer ← (b.buffer.set text).compile b.matcher.dictionary.caseSensitive
  return { b with found := [], buffer := buffer }

/-- Whether a token is passed over without a look: in the merged scope, inside the last match. -/
def passesOver (b : Workbench) (start : Nat) : Bool :=
  b.matcher.scope == .merged && !b.matcher.overlap && b.free.head?.any (start < ·)

/-- Looks for the matches at the token `start`, the first of the `left` last ones. -/
def scanAt (b : Workbench) (left start : Nat) : Option Workbench :=
  if b.passesOver start then some b
  else do
    let t := b.matcher.dictionary.trie
    let hits ← t.hitsFromChecked (fun i => b.buffer.token? (start + i)) left 0 0
    let longest ← Scan.noteAllChecked t (b.longest.map fun _ => none) hits
    match b.matcher.scope with
    | .perList =>
      let (ms, free) ← Scan.matchListsChecked b.matcher.overlap start 0 longest b.free
      return { b with longest := longest, free := free, found := b.found ++ ms }
    | .merged =>
      match hits.getLast? with
      | none => return { b with longest := longest }
      | some h =>
        let n ← t.nodes[h.node]?
        let m ← n.markers[0]?
        return { b with
          longest := longest
          free := b.free.set 0 (start + h.depth)
          found := b.found ++ [⟨start, start + h.depth, m.list, h.node⟩] }

/-- Looks for the matches at the `left` tokens from the place `start` on. -/
def scanFrom (b : Workbench) : Nat → Nat → Option Workbench
  | 0, _ => some b
  | left + 1, start => (b.scanAt (left + 1) start).bind fun b => b.scanFrom left (start + 1)

/-- Looks for the matches in the text. -/
def scan (b : Workbench) : Option Workbench :=
  scanFrom { b with found := [], free := b.free.map fun _ => 0 } b.buffer.spans.length 0

/-- The workbench after a task; undefined if an access is out of range. -/
def perform (b : Workbench) : Task → Option Workbench
  | .text text => b.reset text
  | .scan => b.scan

/-- The workbench after several tasks. -/
def performAll (b : Workbench) : List Task → Option Workbench
  | [] => some b
  | task :: rest => (b.perform task).bind fun b => b.performAll rest

/-- The worker that a workbench **shows**. -/
def view (b : Workbench) : Worker := ⟨b.matcher, b.buffer.view, b.found⟩

/-- What a workbench **keeps** in every state: its matcher, the buffer of its text, and room for each
list. -/
structure Keeps (m : Matcher) (text : String) (b : Workbench) : Prop where
  matcher_eq : b.matcher = m
  buffer_eq : b.buffer = .ofText m.dictionary.caseSensitive text
  length_longest : b.longest.length = m.dictionary.lists.length
  length_free : b.free.length = m.dictionary.lists.length

variable {m : Matcher} {text : String} {b : Workbench}

/-- A new workbench has storage for each list and an empty sentence. -/
theorem keeps_ofMatcher (m : Matcher) : Keeps m "" (ofMatcher m) where
  matcher_eq := rfl
  buffer_eq := (SentenceBuffer.ofText_empty _).symm
  length_longest := List.length_replicate
  length_free := List.length_replicate

/-! ### Scans with kept storage -/

/-- The slots of the lists at a token, whatever they held before. -/
theorem Keeps.noteAllChecked_eq (hb : Keeps m text b)
    (hwf : m.dictionary.trie.WellFormed m.dictionary.columns) (tokens : List String) :
    Scan.noteAllChecked m.dictionary.trie (b.longest.map fun _ => none)
        (m.dictionary.trie.hits tokens) =
      some (Scan.longest m.dictionary.trie b.free.length (m.dictionary.trie.hits tokens)) := by
  rw [List.map_const', hb.length_longest, hb.length_free, ← Dictionary.length_columns]
  exact Scan.noteAllChecked_hits hwf tokens

variable {start : Nat} {tokens : List String}

/-- **One token in the scope of each list.** -/
theorem Keeps.scanAt_perList (hb : Keeps m text b)
    (hwf : m.dictionary.trie.WellFormed m.dictionary.columns) (hscope : m.scope = .perList)
    (htokens : ∀ i < tokens.length, b.buffer.token? (start + i) = tokens[i]?)
    {slots : Scan.Slots} {ms : List Match} {free : List Nat}
    (hslots : Scan.longest m.dictionary.trie b.free.length (m.dictionary.trie.hits tokens) = slots)
    (hms : Scan.matchLists m.overlap start 0 slots b.free = (ms, free)) :
    b.scanAt tokens.length start =
      some { b with longest := slots, free := free, found := b.found ++ ms } := by
  have hpasses : b.passesOver start = false := by rw [passesOver, hb.matcher_eq, hscope]; rfl
  have hlength : slots.length = b.free.length := by rw [← hslots, Scan.length_longest]
  have hmatches := @Scan.matchListsChecked_eq m.overlap start [] slots b.free hlength
  rw [List.length_nil, List.nil_append, List.nil_append, hms] at hmatches
  simp only [scanAt, hpasses, Bool.false_eq_true, if_false, hb.matcher_eq, hscope,
    Scan.hitsFromChecked_drop hwf htokens, hb.noteAllChecked_eq hwf, hslots, hmatches, bind,
    Option.bind]
  rfl

/-- **The tokens from a place on in the scope of each list**: what is found there comes behind what
was found before. -/
theorem exists_scanFrom_perList (hb : Keeps m text b)
    (hwf : m.dictionary.trie.WellFormed m.dictionary.columns) (hscope : m.scope = .perList)
    (htokens : ∀ i < tokens.length, b.buffer.token? (start + i) = tokens[i]?) :
    ∃ b', b.scanFrom tokens.length start = some b' ∧ Keeps m text b' ∧
      b'.found = b.found ++ Scan.perList m.dictionary.trie m.overlap start b.free tokens := by
  induction tokens generalizing start b with
  | nil => exact ⟨b, rfl, hb, (List.append_nil _).symm⟩
  | cons token rest ih =>
      obtain ⟨slots, hslots⟩ : ∃ slots, Scan.longest m.dictionary.trie b.free.length
          (m.dictionary.trie.hits (token :: rest)) = slots := ⟨_, rfl⟩
      obtain ⟨ms, free, hms⟩ : ∃ ms free,
          Scan.matchLists m.overlap start 0 slots b.free = (ms, free) := ⟨_, _, rfl⟩
      have hlongest : slots.length = b.free.length := by rw [← hslots, Scan.length_longest]
      have hfree : free.length = b.free.length := by
        have := @Scan.length_matchLists m.overlap start 0 slots b.free hlongest
        rwa [hms] at this
      have hnext : Keeps m text { b with longest := slots, free := free, found := b.found ++ ms } :=
        ⟨hb.matcher_eq, hb.buffer_eq, hlongest.trans hb.length_free, hfree.trans hb.length_free⟩
      obtain ⟨b', hrest, hb', hfound⟩ := ih hnext (tokens_tail htokens)
      have hscan := hb.scanAt_perList hwf hscope htokens hslots hms
      rw [List.length_cons] at hscan ⊢
      refine ⟨b', ?_, hb', ?_⟩
      · rw [scanFrom, hscan]
        exact hrest
      · rw [hfound, Scan.perList, List.append_assoc]
        simp only [hslots, hms]

/-- Whether a token is passed over in the merged scope is asked of the last end of the first list;
without lists there are no matches, and no token is passed over. -/
theorem Keeps.passesOver_merged (hb : Keeps m text b) (hscope : m.scope = .merged) :
    b.passesOver start = true ↔ ¬ (m.overlap = true ∨ b.free.headD 0 ≤ start) := by
  rw [passesOver, hb.matcher_eq, hscope]
  cases m.overlap <;> cases b.free <;> simp

/-- The workbench with the match of the merged scope at a token, if there is one. -/
def withMatch (b : Workbench) : Option Match → Workbench
  | none => b
  | some found => { b with free := b.free.set 0 found.stop, found := b.found ++ [found] }

/-- A match that is added changes nothing else of a workbench. -/
theorem Keeps.withMatch (hb : Keeps m text b) (found? : Option Match) :
    Keeps m text (b.withMatch found?) := by
  cases found? with
  | none => exact hb
  | some found =>
      exact ⟨hb.matcher_eq, hb.buffer_eq, hb.length_longest, List.length_set.trans hb.length_free⟩

/-- A match that is added comes last. -/
theorem found_withMatch (found? : Option Match) :
    (b.withMatch found?).found = b.found ++ found?.toList := by
  cases found? with
  | none => exact (List.append_nil _).symm
  | some found => rfl

/-- A match is of a list, so there is a first list whose last end can be put down. -/
theorem Keeps.headD_free_withMatch (hb : Keeps m text b)
    (hwf : m.dictionary.trie.WellFormed m.dictionary.columns) {hits : List Trie.Hit}
    {found? : Option Match} (h : Scan.mergedMatch? m.dictionary.trie start hits = found?) :
    (b.withMatch found?).free.headD 0 = (found?.map Match.stop).getD (b.free.headD 0) := by
  cases found? with
  | none => rfl
  | some found =>
      obtain ⟨_, first, _, -, hmarkers, -⟩ := Scan.mergedMatch?_eq_some_iff.mp h
      have hlist := hwf.lt_of_mem_markersAt (hmarkers ▸ List.mem_cons_self)
      obtain ⟨free, rest, hfree⟩ : ∃ free rest, b.free = free :: rest :=
        List.exists_cons_of_length_pos (by rw [hb.length_free, ← Dictionary.length_columns]; omega)
      rw [Workbench.withMatch, hfree]
      rfl

/-- **One token in the merged scope**, if it is looked at. -/
theorem Keeps.scanAt_merged (hb : Keeps m text b)
    (hwf : m.dictionary.trie.WellFormed m.dictionary.columns) (hscope : m.scope = .merged)
    (htokens : ∀ i < tokens.length, b.buffer.token? (start + i) = tokens[i]?)
    (hlook : m.overlap = true ∨ b.free.headD 0 ≤ start) {slots : Scan.Slots}
    (hslots : Scan.longest m.dictionary.trie b.free.length (m.dictionary.trie.hits tokens) = slots) :
    b.scanAt tokens.length start =
      some ({ b with longest := slots }.withMatch
        (Scan.mergedMatch? m.dictionary.trie start (m.dictionary.trie.hits tokens))) := by
  have hpasses : b.passesOver start = false :=
    Bool.eq_false_iff.mpr fun h => (hb.passesOver_merged hscope).mp h hlook
  simp only [scanAt, hpasses, Bool.false_eq_true, if_false, hb.matcher_eq, hscope,
    Scan.hitsFromChecked_drop hwf htokens, hb.noteAllChecked_eq hwf, hslots, bind, Option.bind]
  cases hlast : (m.dictionary.trie.hits tokens).getLast? with
  | none =>
      rw [Scan.mergedMatch?, hlast]
      rfl
  | some last =>
      obtain ⟨n, first, hn, hfirst, hmatch⟩ := Scan.exists_first_marker hwf start hlast
      simp only [hn, hfirst, hmatch]
      rfl

/-- **The tokens from a place on in the merged scope.** -/
theorem exists_scanFrom_merged (hb : Keeps m text b)
    (hwf : m.dictionary.trie.WellFormed m.dictionary.columns) (hscope : m.scope = .merged)
    (htokens : ∀ i < tokens.length, b.buffer.token? (start + i) = tokens[i]?) :
    ∃ b', b.scanFrom tokens.length start = some b' ∧ Keeps m text b' ∧
      b'.found =
        b.found ++ Scan.merged m.dictionary.trie m.overlap start (b.free.headD 0) tokens := by
  induction tokens generalizing start b with
  | nil => exact ⟨b, rfl, hb, (List.append_nil _).symm⟩
  | cons token rest ih =>
      rw [List.length_cons, scanFrom, ← List.length_cons, Scan.merged]
      by_cases hlook : m.overlap = true ∨ b.free.headD 0 ≤ start
      · obtain ⟨slots, hslots⟩ : ∃ slots, Scan.longest m.dictionary.trie b.free.length
            (m.dictionary.trie.hits (token :: rest)) = slots := ⟨_, rfl⟩
        obtain ⟨found?, hfound?⟩ : ∃ found?, Scan.mergedMatch? m.dictionary.trie start
            (m.dictionary.trie.hits (token :: rest)) = found? := ⟨_, rfl⟩
        have hlooked : Keeps m text { b with longest := slots } :=
          ⟨hb.matcher_eq, hb.buffer_eq, by
            rw [← hb.length_free, ← hslots, Scan.length_longest], hb.length_free⟩
        have hbuffer : ({ b with longest := slots }.withMatch found?).buffer = b.buffer :=
          (hlooked.withMatch found?).buffer_eq.trans hb.buffer_eq.symm
        obtain ⟨b', hrest, hb', hfound⟩ := ih (hlooked.withMatch found?)
          (hbuffer ▸ tokens_tail htokens)
        refine ⟨b', ?_, hb', ?_⟩
        · rw [hb.scanAt_merged hwf hscope htokens hlook hslots, hfound?]
          exact hrest
        · rw [hfound, found_withMatch, hlooked.headD_free_withMatch hwf hfound?, if_pos hlook,
            hfound?, List.append_assoc]
          cases found? <;> rfl
      · have hpasses : b.passesOver start = true := (hb.passesOver_merged hscope).mpr hlook
        obtain ⟨b', hrest, hb', hfound⟩ := ih hb (tokens_tail htokens)
        refine ⟨b', ?_, hb', ?_⟩
        · rw [scanAt, if_pos hpasses]
          exact hrest
        · rw [hfound, if_neg hlook]

/-! ### Tasks -/

/-- **A scan with kept storage** finds what a scan without any finds. -/
theorem Keeps.exists_scan (hb : Keeps m text b)
    (hwf : m.dictionary.trie.WellFormed m.dictionary.columns) :
    ∃ b', b.scan = some b' ∧ Keeps m text b' ∧
      b'.found = Scan.run m.dictionary m.scope m.overlap
        ((Sentence.ofText text).segment m.dictionary.caseSensitive).keys := by
  obtain ⟨keys, hkeys⟩ : ∃ keys,
      ((Sentence.ofText text).segment m.dictionary.caseSensitive).keys = keys := ⟨_, rfl⟩
  have hsize : b.buffer.spans.length = keys.length := by
    rw [hb.buffer_eq, ← hkeys, SentenceBuffer.length_spans_ofText]
  have htokens : ∀ i < keys.length, b.buffer.token? (0 + i) = keys[i]? := by
    intro i _
    rw [Nat.zero_add, hb.buffer_eq, SentenceBuffer.token?_ofText, hkeys]
  have hzero : (b.free.map fun _ => 0) = List.replicate m.dictionary.lists.length 0 := by
    rw [List.map_const', hb.length_free]
  have hemptied : Keeps m text { b with found := [], free := b.free.map fun _ => 0 } :=
    ⟨hb.matcher_eq, hb.buffer_eq, hb.length_longest, (List.length_map ..).trans hb.length_free⟩
  rw [scan, hsize, hkeys]
  cases hscope : m.scope with
  | perList =>
      obtain ⟨b', hscan, hb', hfound⟩ := exists_scanFrom_perList hemptied hwf hscope htokens
      refine ⟨b', hscan, hb', hfound.trans ?_⟩
      rw [List.nil_append, Scan.run, hzero]
  | merged =>
      obtain ⟨b', hscan, hb', hfound⟩ := exists_scanFrom_merged hemptied hwf hscope htokens
      refine ⟨b', hscan, hb', hfound.trans ?_⟩
      rw [List.nil_append, Scan.run, hzero]
      cases m.dictionary.lists.length <;> rfl

/-- A workbench **stands for** a worker: both have the same text and the same matches. -/
structure StandsFor (m : Matcher) (b : Workbench) (w : Worker) : Prop where
  keeps : Keeps m w.sentence.raw b
  found_eq : b.found = w.found

/-- What a workbench shows is the worker it stands for. -/
theorem StandsFor.view_eq {w : Worker} (h : StandsFor m b w) (hw : Steady m w) : b.view = w := by
  rw [view, h.keeps.matcher_eq, h.keeps.buffer_eq, SentenceBuffer.view_ofText, h.found_eq,
    ← hw.sentence_eq, ← hw.matcher_eq]

/-- **A task** is done alike by a workbench and by the worker for which it stands. -/
theorem StandsFor.exists_perform {w : Worker} (h : StandsFor m b w) (hw : Steady m w)
    (hwf : m.dictionary.trie.WellFormed m.dictionary.columns) (task : Task) :
    ∃ b', b.perform task = some b' ∧ StandsFor m b' (w.perform task) := by
  cases task with
  | text text =>
      refine ⟨{ b with found := [], buffer := .ofText m.dictionary.caseSensitive text }, ?_, ?_⟩
      · rw [perform, reset, h.keeps.matcher_eq, SentenceBuffer.compile_set]
        rfl
      · exact ⟨⟨h.keeps.matcher_eq, rfl, h.keeps.length_longest, h.keeps.length_free⟩, rfl⟩
  | scan =>
      obtain ⟨b', hscan, hb', hfound⟩ := h.keeps.exists_scan hwf
      refine ⟨b', hscan, hb', hfound.trans ?_⟩
      rw [← hw.sentence_eq, ← hw.matcher_eq]
      rfl

/-- A workbench stands for its worker after any tasks, and none of its accesses fails. -/
theorem StandsFor.exists_performAll {w : Worker} (h : StandsFor m b w) (hw : Steady m w)
    (hwf : m.dictionary.trie.WellFormed m.dictionary.columns) (tasks : List Task) :
    ∃ b', b.performAll tasks = some b' ∧ StandsFor m b' (w.performAll tasks) := by
  induction tasks generalizing b w with
  | nil => exact ⟨b, rfl, h⟩
  | cons task rest ih =>
      obtain ⟨next, hnext, hstands⟩ := h.exists_perform hw hwf task
      obtain ⟨b', hrest, hb'⟩ := ih hstands (hw.perform task)
      refine ⟨b', ?_, hb'⟩
      rw [performAll, hnext]
      exact hrest

/-- **What a workbench shows after any tasks**: the worker that was put to them. No access is out of
range on the way. -/
theorem view_performAll {k : Container.Codec} (hd : Dictionary.Obtained k m.dictionary)
    (tasks : List Task) :
    ((ofMatcher m).performAll tasks).map view = some ((Worker.ofMatcher m).performAll tasks) := by
  obtain ⟨b, hb, hstands⟩ := StandsFor.exists_performAll ⟨keeps_ofMatcher m, rfl⟩
    (Worker.steady_ofMatcher m) hd.wellFormed tasks
  rw [hb, Option.map_some, hstands.view_eq (Worker.steady_performAll m tasks)]

/-! ### Texts one after the other -/

variable {k : Container.Codec}

/-- What a new workbench shows after some tasks; undefined if an access is out of range. -/
def shown (m : Matcher) (tasks : List Task) : Option Worker :=
  ((ofMatcher m).performAll tasks).map view

/-- **A workbench that is used again is like a new one.** Whatever it is put to, all accesses are in
range, and its matches cover tokens that its text has. After a scan it shows what a new one shows that
got nothing but the last text and was put to one scan. A second scan changes nothing, and a new text
has no matches. -/
theorem shows_last_text_only (hd : Dictionary.Obtained k m.dictionary) :
    (∀ tasks, ∃ w, shown m tasks = some w ∧
        ∀ found ∈ w.found, found.start < found.stop ∧ found.stop ≤ w.sentence.size) ∧
      (∀ tasks, shown m (tasks ++ [.scan]) =
        shown m ((Worker.lastText? tasks).toList.map .text ++ [.scan])) ∧
      (∀ tasks, shown m (tasks ++ [.scan, .scan]) = shown m (tasks ++ [.scan])) ∧
      ∀ tasks text, (shown m (tasks ++ [.text text])).map Worker.found = some [] := by
  have hshown (tasks : List Task) : shown m tasks = some ((Worker.ofMatcher m).performAll tasks) :=
    view_performAll hd tasks
  refine ⟨fun tasks => ⟨_, hshown tasks, fun found hfound => ?_⟩, fun tasks => ?_, fun tasks => ?_,
    fun tasks text => ?_⟩
  · have hrange := Worker.inRange_of_mem_found hd (Worker.steady_performAll m tasks) hfound
    exact ⟨hrange.start_lt_stop, hrange.stop_le⟩
  · rw [hshown, hshown, Worker.performAll_scan]
  · rw [hshown, hshown, Worker.performAll_append, Worker.performAll_append]
    rfl
  · rw [hshown, Worker.performAll_append]
    rfl

/-- After a text without tokens the slots still hold a key of the text before it, and nothing of it
shows. -/
theorem shows_last_text_only_new_york :
    ((ofMatcher ⟨DictionaryBuilder.dictionary ⟨false, true⟩ Sample.calls, false, .merged⟩).performAll
        [.text "In New York City it is new", .scan, .text " ", .scan]).map longest =
          some [none, some ⟨1, 1⟩] ∧
      shown ⟨DictionaryBuilder.dictionary ⟨false, true⟩ Sample.calls, false, .merged⟩
          [.text "In New York City it is new", .scan, .text " ", .scan] =
        shown ⟨DictionaryBuilder.dictionary ⟨false, true⟩ Sample.calls, false, .merged⟩
          [.text " ", .scan] := by
  have hobtained : Dictionary.Obtained .standard
      (DictionaryBuilder.dictionary ⟨false, true⟩ Sample.calls) := .built _ _
  obtain ⟨-, hscan, -⟩ := @shows_last_text_only
    ⟨DictionaryBuilder.dictionary ⟨false, true⟩ Sample.calls, false, .merged⟩ _ hobtained
  refine ⟨?_, hscan [.text "In New York City it is new", .scan, .text " "]⟩
  decide +kernel

end Workbench

end AnnotatedText
