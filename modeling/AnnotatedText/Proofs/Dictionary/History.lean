import AnnotatedText.Dictionary.Builder
import AnnotatedText.Proofs.Lexicon.Entries
import AnnotatedText.Proofs.Trie.Builder

/-!
# Histories of a builder

A builder is used by calls that each add one list, and any of them may fail. Whether a call is
accepted and which entries it adds depends on the call alone, `Call.entries?`, but for the places that
are left for lists; what a builder holds after a **history** of calls is described by the accepted
ones, `DictionaryBuilder.Holds`: their lists in order, the tree of the keys that they insert, and for
each key and each of the lists the attributes of its last entry with that key. One call keeps a
builder in step with this description, `Holds.add`, so a history does, `holds_run`.

A dictionary has its trie from the tree of keys. The same insertions into the array of a
`TrieBuilder` build the same trie, or fail with the same error, `exists_gather_finish`.

## Main results

* `Call.error?_add_eq_none_iff`: a call fails unless it is accepted and there is a place for its list.
* `DictionaryBuilder.holds_run`: what a builder holds after a history.
* `DictionaryBuilder.exists_gather_finish`: its trie is the one that is built in an array.
* `DictionaryBuilder.wellFormed_dictionary`: its trie is well-formed.
-/

namespace AnnotatedText

/-- What the entries of a list come from: a lexicon, which may be unreadable, or entries given as
such. -/
inductive ListSource where
  | lexicon (format : LexiconFormat) (content : Except PathError Bytes)
  | given (entries : List Entry)

/-- A call that is to add a list. -/
structure Call where
  list : SourceList
  source : ListSource

/-- The key of an entry, in the form in which it is looked up. -/
def Entry.key (caseSensitive : Bool) (e : Entry) : List String :=
  e.tokens.map (foldCase caseSensitive)

/-- The attributes of the last entry with a key. -/
def lastAttributes (caseSensitive : Bool) (entries : List Entry) (key : List String) :
    Option (List Scalar) :=
  ((entries.filter fun e => e.key caseSensitive = key).getLast?).map Entry.attributes

namespace Call

/-- What is **read for a call**, unless there is nothing to read. -/
def reading? (c : Call) : Option (Except (List Diagnostic) Harvest) :=
  match c.source with
  | .given entries => some (.ok (checkEntries c.list entries))
  | .lexicon _ (.error _) => none
  | .lexicon format (.ok bytes) =>
    if format.keyFields = 0 then none
    else match decodeLexicon format.encoding bytes with
      | .error _ => none
      | .ok text => some (readLexicon c.list format text)

/-- The entries that a call adds, if it is accepted. -/
def entries? (c : Call) : Option (List Entry) :=
  if c.list.typeName = "" then none
  else match c.reading? with
    | some (.ok found) => some found.entries
    | some (.error _) | none => none

/-- Whether the reading for a call is broken off. -/
def breaksOff (c : Call) : Bool :=
  match c.reading? with
  | some (.error _) => true
  | some (.ok _) | none => false

/-- Whether the list of a call is added, if there is a place for it. -/
def isAccepted (c : Call) : Bool := c.entries?.isSome

/-- The insertions of a call whose list has the place `list`. -/
def insertions (caseSensitive : Bool) (list : Nat) (c : Call) : List Insertion :=
  (c.entries?.getD []).map fun e => ⟨e.key caseSensitive, ⟨list, e.attributes⟩⟩

/-- The insertions of calls one after the other. -/
def allInsertions (caseSensitive : Bool) (calls : List Call) : List Insertion :=
  calls.zipIdx.flatMap fun x => x.1.insertions caseSensitive x.2

/-- The insertions of a further call come last. -/
theorem allInsertions_append_singleton (caseSensitive : Bool) (calls : List Call) (c : Call) :
    allInsertions caseSensitive (calls ++ [c]) =
      allInsertions caseSensitive calls ++ c.insertions caseSensitive calls.length := by
  simp [allInsertions, List.zipIdx_append]

/-- What is read for a call is proper. -/
theorem proper_of_reading? {c : Call} {found : Harvest} (h : c.reading? = some (.ok found))
    {e : Entry} (he : e ∈ found.entries) : e.Proper c.list.columns := by
  unfold reading? at h
  split at h
  · obtain rfl := Except.ok.inj (Option.some.inj h)
    exact proper_of_checkEntries he
  · cases h
  · split at h
    · cases h
    · split at h
      · cases h
      · exact proper_of_readLexicon (Option.some.inj h) he

/-- The entries of an accepted call are proper. -/
theorem proper_of_entries? {c : Call} {entries : List Entry} (h : c.entries? = some entries)
    {e : Entry} (he : e ∈ entries) : e.Proper c.list.columns := by
  unfold entries? at h
  split at h
  · cases h
  · split at h
    · rename_i found hread
      obtain rfl := Option.some.inj h
      exact proper_of_reading? hread he
    · cases h
    · cases h

end Call

namespace DictionaryBuilder

/-- Makes a call. -/
def add (b : DictionaryBuilder) (c : Call) : Addition :=
  match c.source with
  | .lexicon format content => b.addSource c.list format content
  | .given entries => b.addEntries c.list entries

/-- The builder after a history of calls. -/
def run (b : DictionaryBuilder) : List Call → DictionaryBuilder
  | [] => b
  | c :: rest => (b.add c).builder.run rest

/-! ### The entries of one list -/

/-- The first entry is inserted before the others. -/
theorem insertEntries_cons (caseSensitive : Bool) (name : String) (list : Nat) (keys : KeyTree)
    (e : Entry) (rest : List Entry) :
    (insertEntries caseSensitive name list keys (e :: rest)).1 =
      (insertEntries caseSensitive name list
        (keys.insert (e.key caseSensitive) ⟨list, e.attributes⟩) rest).1 :=
  rfl

/-- The entries of a list are inserted one after the other. -/
theorem insertEntries_eq_foldl (caseSensitive : Bool) (name : String) (list : Nat) (keys : KeyTree)
    (entries : List Entry) :
    (insertEntries caseSensitive name list keys entries).1 =
      (entries.map fun e => (⟨e.key caseSensitive, ⟨list, e.attributes⟩⟩ : Insertion)).foldl
        (fun t x => t.insert x.key x.marker) keys := by
  induction entries generalizing keys with
  | nil => rfl
  | cons e rest ih => rw [insertEntries_cons, ih, List.map_cons, List.foldl_cons]

/-- The entries of a list that fit it keep the keys ordered. -/
theorem ordered_insertEntries {lists : List (List Column)} {list : Nat} {columns : List Column}
    (hl : lists[list]? = some columns) (caseSensitive : Bool) (name : String) {keys : KeyTree}
    (h : keys.Ordered lists) {entries : List Entry} (he : ∀ e ∈ entries, e.Proper columns) :
    (insertEntries caseSensitive name list keys entries).1.Ordered lists := by
  induction entries generalizing keys with
  | nil => exact h
  | cons e rest ih =>
      obtain ⟨hproper, hrest⟩ := List.forall_mem_cons.mp he
      rw [insertEntries_cons]
      exact ih (h.insert (MarkersFit.singleton hl hproper.fits) _) hrest

/-- No entry has the empty key. -/
theorem rootMarkers_insertEntries (caseSensitive : Bool) (name : String) (list : Nat)
    {keys : KeyTree} {columns : List Column} {entries : List Entry}
    (he : ∀ e ∈ entries, e.Proper columns) :
    (insertEntries caseSensitive name list keys entries).1.rootMarkers = keys.rootMarkers := by
  induction entries generalizing keys with
  | nil => rfl
  | cons e rest ih =>
      obtain ⟨hproper, hrest⟩ := List.forall_mem_cons.mp he
      rw [insertEntries_cons, ih hrest]
      cases hk : e.key caseSensitive with
      | nil => exact absurd (List.map_eq_nil_iff.mp hk) hproper.has_tokens
      | cons token key => rfl

/-- The first entry with a key counts only if no later one has the key. -/
theorem lastAttributes_cons (caseSensitive : Bool) (e : Entry) (rest : List Entry)
    (key : List String) :
    lastAttributes caseSensitive (e :: rest) key =
      (lastAttributes caseSensitive rest key).or
        (if e.key caseSensitive = key then some e.attributes else none) := by
  by_cases h : e.key caseSensitive = key
  · cases hr : (rest.filter fun e => decide (e.key caseSensitive = key)).getLast? with
    | none => simp_all [lastAttributes, List.getLast?_cons]
    | some last => simp [lastAttributes, h, hr, List.getLast?_cons]
  · simp [lastAttributes, h]

/-- **The last entry of the list with a key counts**; what other lists have at a key, and what the
list had at keys without a new entry, stays. -/
theorem attributesOf_insertEntries (caseSensitive : Bool) (name : String) (list : Nat)
    {keys : KeyTree} (h : keys.forest.Sorted) (entries : List Entry) (key : List String)
    (other : Nat) :
    Trie.attributesOf
        ((insertEntries caseSensitive name list keys entries).1.markersAt key) other =
      if other = list then
        (lastAttributes caseSensitive entries key).or (Trie.attributesOf (keys.markersAt key) list)
      else Trie.attributesOf (keys.markersAt key) other := by
  induction entries generalizing keys with
  | nil => by_cases ho : other = list <;> simp [insertEntries, lastAttributes, ho]
  | cons e rest ih =>
      have hsorted := KeyTree.sorted_insert h (e.key caseSensitive) ⟨list, e.attributes⟩
      rw [insertEntries_cons, ih hsorted, KeyTree.markersAt_insert h, lastAttributes_cons]
      by_cases hk : key = e.key caseSensitive
      · subst hk
        by_cases ho : other = list
        · simp [ho, Trie.attributesOf_putMarker]
        · simp [ho, Ne.symm ho, Trie.attributesOf_putMarker]
      · simp [hk, Ne.symm hk]

/-! ### One call -/

/-- **What a call does** depends on what is read for it. If it is nothing, the call fails at once; if
the reading is broken off, the call fails with it; else what is read is added as that of its list. -/
theorem add_eq (b : DictionaryBuilder) (c : Call) :
    (c.reading? = none ∧ ∃ e, e ≠ .noPlace ∧ e ≠ .brokenOff ∧ b.add c = ⟨b, [], some e⟩) ∨
    (∃ ds, c.reading? = some (.error ds) ∧ b.add c = b.refuse ds .brokenOff) ∨
    ∃ found, c.reading? = some (.ok found) ∧ b.add c = b.addHarvest c.list found := by
  obtain ⟨list, ⟨format, e | bytes⟩ | entries⟩ := c
  · exact .inl ⟨rfl, .unreadable e, by simp, by simp, rfl⟩
  · by_cases hk : format.keyFields = 0
    · exact .inl ⟨by simp [Call.reading?, hk], .noKeyFields, by simp, by simp,
        by simp [add, addSource, addList, hk]⟩
    · cases hd : decodeLexicon format.encoding bytes with
      | error fault =>
          exact .inl ⟨by simp [Call.reading?, hk, hd], .undecodable list.name format.encoding fault,
            by simp, by simp, by simp [add, addSource, addList, hk, hd]⟩
      | ok text =>
          cases hread : readLexicon list format text with
          | error ds =>
              exact .inr (.inl ⟨ds, by simp [Call.reading?, hk, hd, hread],
                by simp [add, addSource, addList, hk, hd, hread]⟩)
          | ok found =>
              exact .inr (.inr ⟨found, by simp [Call.reading?, hk, hd, hread],
                by simp [add, addSource, addList, hk, hd, hread]⟩)
  · exact .inr (.inr ⟨_, rfl, rfl⟩)

/-- **What a call leaves**: one that is not accepted, or for which there is no place, fails and leaves
lists and keys as they are; any other one does not fail and adds its list and its entries. -/
theorem add_cases (b : DictionaryBuilder) (c : Call) :
    ((c.entries? = none ∨ placeLimit ≤ b.lists.length) ∧ (b.add c).error?.isSome = true ∧
      (b.add c).builder.options = b.options ∧ (b.add c).builder.lists = b.lists ∧
      (b.add c).builder.keys = b.keys) ∨
    ∃ entries, c.entries? = some entries ∧ b.lists.length < placeLimit ∧
      (b.add c).error? = none ∧
      (b.add c).builder.options = b.options ∧ (b.add c).builder.lists = b.lists ++ [c.list] ∧
      (b.add c).builder.keys =
        (insertEntries b.options.caseSensitive c.list.name b.lists.length b.keys entries).1 := by
  obtain ⟨hread, e, -, -, hadd⟩ | ⟨ds, hread, hadd⟩ | ⟨found, hread, hadd⟩ := b.add_eq c
  · left
    simp [Call.entries?, hread, hadd]
  · left
    simp [Call.entries?, hread, hadd, refuse, note]
  · by_cases htype : c.list.typeName = ""
    · left
      simp [Call.entries?, hadd, addHarvest, htype, refuse, note]
    · rcases Nat.lt_or_ge b.lists.length placeLimit with hroom | hfull
      · right
        refine ⟨found.entries, by simp [Call.entries?, hread, htype], hroom, ?_⟩
        rw [hadd, addHarvest, if_neg htype, if_neg (Nat.not_le_of_lt hroom)]
        exact ⟨rfl, rfl, rfl, rfl⟩
      · left
        rw [hadd, addHarvest, if_neg htype, if_pos hfull]
        exact ⟨.inr hfull, rfl, rfl, rfl, rfl⟩

end DictionaryBuilder

/-- **A call fails unless it is accepted and there is a place for its list**, whatever else the
builder holds. -/
theorem Call.error?_add_eq_none_iff (b : DictionaryBuilder) (c : Call) :
    (b.add c).error? = none ↔ c.isAccepted = true ∧ b.lists.length < placeLimit := by
  obtain ⟨hcause, herror, -⟩ | ⟨entries, hsome, hroom, herror, -⟩ := b.add_cases c
  · refine iff_of_false (fun hnone => by simp [hnone] at herror) fun ⟨haccepted, hroom⟩ => ?_
    rcases hcause with hnone | hfull
    · simp [Call.isAccepted, hnone] at haccepted
    · exact Nat.not_le_of_lt hroom hfull
  · exact iff_of_true herror ⟨by simp [Call.isAccepted, hsome], hroom⟩

/-- A call fails with a reading that is broken off if and only if its own reading is. -/
theorem Call.error?_add_eq_brokenOff_iff (b : DictionaryBuilder) (c : Call) :
    (b.add c).error? = some .brokenOff ↔ c.breaksOff = true := by
  obtain ⟨hread, e, -, hne, hadd⟩ | ⟨ds, hread, hadd⟩ | ⟨found, hread, hadd⟩ := b.add_eq c
  · simp [breaksOff, hread, hadd, hne]
  · simp [breaksOff, hread, hadd, DictionaryBuilder.refuse]
  · have hne : (b.addHarvest c.list found).error? ≠ some .brokenOff := by
      rw [DictionaryBuilder.addHarvest]
      split
      · exact nofun
      · split <;> exact nofun
    simp [breaksOff, hread, hadd, hne]

namespace DictionaryBuilder

/-! ### Histories -/

/-- A builder with the given options **holds** what accepted calls describe. -/
structure Holds (b : DictionaryBuilder) (options : DictionaryOptions) (added : List Call) :
    Prop where
  options_eq : b.options = options
  lists_eq : b.lists = added.map Call.list
  keys_eq : b.keys = KeyTree.gather (Call.allInsertions options.caseSensitive added)
  keys_ordered : b.keys.Ordered (b.lists.map SourceList.columns)
  root_empty : b.keys.rootMarkers = []
  /-- At each key, each list has the attributes of its last entry with that key. -/
  attributes_eq : ∀ key list, Trie.attributesOf (b.keys.markersAt key) list =
    (added[list]?).bind fun c =>
      c.entries?.bind fun entries => lastAttributes options.caseSensitive entries key

/-- A builder without lists holds what no calls describe. -/
theorem holds_empty (options : DictionaryOptions) : (empty options).Holds options [] where
  options_eq := rfl
  lists_eq := rfl
  keys_eq := rfl
  keys_ordered := KeyTree.Ordered.empty
  root_empty := rfl
  attributes_eq key list := by cases key <;> rfl

variable {b : DictionaryBuilder} {options : DictionaryOptions} {added : List Call}

/-- A builder has as many lists as calls were accepted. -/
theorem Holds.length_lists (h : b.Holds options added) : b.lists.length = added.length := by
  rw [h.lists_eq, List.length_map]

/-- **One call keeps a builder in step with what is accepted**, as long as there is a place for it. -/
theorem Holds.add (h : b.Holds options added) (c : Call) :
    (b.add c).builder.Holds options
      (added ++ ([c].filter Call.isAccepted).take (placeLimit - added.length)) := by
  have hlength := h.length_lists
  obtain ⟨hcause, -, hoptions, hlists, hkeys⟩ | ⟨entries, hsome, hroom, -, hoptions, hlists, hkeys⟩ :=
    b.add_cases c
  · have hskip : ([c].filter Call.isAccepted).take (placeLimit - added.length) = [] := by
      rcases hcause with hnone | hfull
      · simp [Call.isAccepted, hnone]
      · rw [← hlength, Nat.sub_eq_zero_of_le hfull, List.take_zero]
    rw [hskip, List.append_nil]
    refine ⟨hoptions.trans h.options_eq, hlists.trans h.lists_eq, hkeys.trans h.keys_eq, ?_, ?_,
      ?_⟩
    · rw [hkeys, hlists]
      exact h.keys_ordered
    · rw [hkeys]
      exact h.root_empty
    · rw [hkeys]
      exact h.attributes_eq
  · have htake : ([c].filter Call.isAccepted).take (placeLimit - added.length) = [c] := by
      have haccepted : [c].filter Call.isAccepted = [c] := by simp [Call.isAccepted, hsome]
      rw [haccepted, List.take_of_length_le]
      rw [List.length_singleton]
      omega
    have hproper : ∀ e ∈ entries, e.Proper c.list.columns :=
      fun e he => Call.proper_of_entries? hsome he
    rw [htake]
    refine ⟨hoptions.trans h.options_eq, by simp [hlists, h.lists_eq], ?_, ?_, ?_, ?_⟩
    · rw [hkeys, insertEntries_eq_foldl, h.keys_eq, h.options_eq, hlength,
        Call.allInsertions_append_singleton, Call.insertions, hsome, Option.getD_some]
      exact (List.foldl_append ..).symm
    · rw [hkeys, hlists, List.map_append]
      refine ordered_insertEntries ?_ _ _ (h.keys_ordered.append _) hproper
      simp
    · rw [hkeys, rootMarkers_insertEntries _ _ _ hproper, h.root_empty]
    · intro key list
      rw [hkeys, attributesOf_insertEntries _ _ _ h.keys_ordered.forest_sorted, h.attributes_eq,
        h.attributes_eq, hlength, h.options_eq]
      obtain hlt | rfl | hgt := Nat.lt_trichotomy list added.length
      · rw [if_neg (by omega), List.getElem?_append_left hlt]
      · simp [hsome]
      · rw [if_neg (by omega), List.getElem?_eq_none (by omega),
          List.getElem?_eq_none (by simp; omega)]

/-- A history keeps a builder in step with what is accepted. -/
theorem Holds.run (h : b.Holds options added) (calls : List Call) :
    (b.run calls).Holds options
      (added ++ (calls.filter Call.isAccepted).take (placeLimit - added.length)) := by
  induction calls generalizing b added with
  | nil => simpa [DictionaryBuilder.run] using h
  | cons c rest ih =>
      have hrest := ih (h.add c)
      rw [List.append_assoc, List.length_append, List.length_take] at hrest
      rw [← List.singleton_append, List.filter_append, List.take_append]
      -- the first call leaves as many places as it does not take
      have hleft : placeLimit - added.length - ([c].filter Call.isAccepted).length =
          placeLimit - (added.length +
            min (placeLimit - added.length) ([c].filter Call.isAccepted).length) := by
        omega
      rw [hleft]
      exact hrest

end DictionaryBuilder

/-- The calls of a history that are **accepted**, as long as there are places for their lists. -/
def Call.accepted (calls : List Call) : List Call :=
  (calls.filter Call.isAccepted).take placeLimit

/-- Where there are enough places every accepted call is among them. -/
theorem Call.accepted_eq_filter {calls : List Call} (h : calls.length ≤ placeLimit) :
    Call.accepted calls = calls.filter Call.isAccepted :=
  List.take_of_length_le (Nat.le_trans (List.length_filter_le ..) h)

namespace DictionaryBuilder

/-- **What a builder holds after a history** is what its accepted calls describe. -/
theorem holds_run (options : DictionaryOptions) (calls : List Call) :
    ((empty options).run calls).Holds options (Call.accepted calls) :=
  (holds_empty options).run calls

/-! ### Dictionaries -/

/-- The dictionary of a history. -/
def dictionary (options : DictionaryOptions) (calls : List Call) : Dictionary :=
  ((empty options).run calls).build

/-- The dictionary of a history folds case as the options say. -/
theorem caseSensitive_dictionary (options : DictionaryOptions) (calls : List Call) :
    (dictionary options calls).caseSensitive = options.caseSensitive :=
  congrArg DictionaryOptions.caseSensitive (holds_run options calls).options_eq

/-- The dictionary of a history has the lists of the accepted calls. -/
theorem lists_dictionary (options : DictionaryOptions) (calls : List Call) :
    (dictionary options calls).lists = (Call.accepted calls).map Call.list :=
  (holds_run options calls).lists_eq

/-- **The trie of a history is built in an array**: the same insertions there all succeed and build
what is built of the tree of keys, or fail as that does. -/
theorem exists_gather_finish (options : DictionaryOptions) (calls : List Call) :
    ∃ b, TrieBuilder.gather (Call.allInsertions options.caseSensitive (Call.accepted calls)) =
        some b ∧
      b.build = some (((empty options).run calls).finish.map Dictionary.trie) := by
  obtain ⟨b, hb, hholds⟩ := TrieBuilder.exists_gather
    (Call.allInsertions options.caseSensitive (Call.accepted calls))
  refine ⟨b, hb, ?_⟩
  rw [← (holds_run options calls).keys_eq] at hholds
  rw [hholds.build_eq, finish]
  split <;> rfl

/-- A built trie passes its check, whatever the history. -/
theorem wellFormed_dictionary (options : DictionaryOptions) (calls : List Call) :
    (dictionary options calls).trie.WellFormed (dictionary options calls).columns :=
  (holds_run options calls).keys_ordered.wellFormed_toTrie

/-- **The dictionary of a history is the map of its entries.** -/
theorem attributesOf_markers_dictionary (options : DictionaryOptions) (calls : List Call)
    (key : List String) (list : Nat) :
    Trie.attributesOf ((dictionary options calls).trie.markers key) list =
      ((Call.accepted calls)[list]?).bind fun c =>
        c.entries?.bind fun entries => lastAttributes options.caseSensitive entries key := by
  rw [← (holds_run options calls).attributes_eq key list]
  exact congrArg (Trie.attributesOf · list) (KeyTree.markers_toTrie _ key)

end DictionaryBuilder

/-! ### A history -/

namespace Sample

/-- A list of cities with their areas. -/
def cities : Call :=
  ⟨⟨"cities", "demo.City", [⟨"area", .double⟩]⟩,
    .given [⟨["New", "York"], [.double ⟨0x4088600000000000⟩]⟩,
      ⟨["York"], [.double ⟨0x4071000000000000⟩]⟩]⟩

/-- A list without a type, which is not accepted. -/
def untyped : Call := ⟨⟨"untyped", "", []⟩, .given [⟨["York"], []⟩]⟩

/-- A list of words and names, one of which goes on where the name of a city ends. -/
def words : Call :=
  ⟨⟨"words", "demo.Word", []⟩,
    .lexicon .standard (.ok (Text.encode "new\nNew York City"))⟩

/-- A history with a call that fails between two that do not. -/
def calls : List Call := [cities, untyped, words]

end Sample

end AnnotatedText
