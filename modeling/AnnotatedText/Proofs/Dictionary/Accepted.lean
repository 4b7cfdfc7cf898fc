import AnnotatedText.Proofs.Dictionary.History
import AnnotatedText.Proofs.Trie.Keys
import Mathlib.Data.List.Forall2

/-!
# What accepted calls build

Of a history of calls only those that succeed leave something behind in the dictionary. A call that
fails may note diagnostics down, and these are no part of a dictionary; so builders are compared by
what they build, `DictionaryBuilder.BuildsLike`, which is options, lists and keys. A failing call
takes no builder away from where it was, and an accepted one takes builders that build alike to
builders that build alike; leaving the failing calls out of a history is an induction on it.

An accepted call counts by its list and by the keys and attributes of its entries only,
`Call.Alike`, so it may also be replaced by one that has other entries with the same keys.

## Main results

* `DictionaryBuilder.BuildsLike.run_alike`: alike calls build alike.
* `DictionaryBuilder.succeeded_eq_take`: which calls of a history succeed.
* `DictionaryBuilder.BuildsLike.run_succeeded`: the others may be left out.
* `DictionaryBuilder.failed_calls_leave_no_trace`
-/

namespace AnnotatedText

/-! ### Alike calls -/

/-- Two entries are **alike** if they have the same attributes and one key, in the form in which it
is looked up. -/
structure Entry.Alike (caseSensitive : Bool) (e e' : Entry) : Prop where
  key_eq : e.key caseSensitive = e'.key caseSensitive
  attributes_eq : e.attributes = e'.attributes

/-- Two calls are **alike** if both are accepted and add one list with alike entries, in order. -/
structure Call.Alike (caseSensitive : Bool) (c c' : Call) : Prop where
  list_eq : c.list = c'.list
  entries_alike : ∃ entries entries', c.entries? = some entries ∧ c'.entries? = some entries' ∧
    List.Forall₂ (Entry.Alike caseSensitive) entries entries'

/-- An accepted call is like itself. -/
theorem Call.alike_self {c : Call} (h : c.isAccepted = true) (caseSensitive : Bool) :
    c.Alike caseSensitive c := by
  obtain ⟨entries, hentries⟩ := Option.isSome_iff_exists.mp h
  exact ⟨rfl, entries, entries, hentries, hentries, List.forall₂_same.mpr fun _ _ => ⟨rfl, rfl⟩⟩

/-- Accepted calls are accepted without the others. -/
theorem Call.accepted_accepted (calls : List Call) :
    Call.accepted (Call.accepted calls) = Call.accepted calls := by
  have hall : ∀ c ∈ Call.accepted calls, c.isAccepted = true := fun c hc =>
    (List.mem_filter.mp (List.mem_of_mem_take hc)).2
  rw [Call.accepted, List.filter_eq_self.mpr hall, Call.accepted, List.take_take, Nat.min_self]

namespace DictionaryBuilder

/-- Alike entries leave the same keys. -/
theorem insertEntries_congr {caseSensitive : Bool} {entries entries' : List Entry}
    (h : List.Forall₂ (Entry.Alike caseSensitive) entries entries') (name name' : String)
    (list : Nat) (keys : KeyTree) :
    (insertEntries caseSensitive name list keys entries).1 =
      (insertEntries caseSensitive name' list keys entries').1 := by
  induction h generalizing keys with
  | nil => rfl
  | cons he _ ih => rw [insertEntries_cons, insertEntries_cons, he.key_eq, he.attributes_eq, ih]

/-- No call changes the options. -/
theorem options_add (b : DictionaryBuilder) (c : Call) : (b.add c).builder.options = b.options := by
  obtain ⟨-, -, hoptions, -⟩ | ⟨entries, -, -, -, hoptions, -⟩ := b.add_cases c
  · exact hoptions
  · exact hoptions

/-! ### Builders that build alike -/

/-- Two builders **build alike** if they have the same options, lists and keys. Their diagnostics may
differ. -/
structure BuildsLike (b b' : DictionaryBuilder) : Prop where
  options_eq : b.options = b'.options
  lists_eq : b.lists = b'.lists
  keys_eq : b.keys = b'.keys

namespace BuildsLike

variable {b b' : DictionaryBuilder}

theorem refl (b : DictionaryBuilder) : b.BuildsLike b := ⟨rfl, rfl, rfl⟩

/-- Builders that build alike build one dictionary. -/
theorem build_eq (h : b.BuildsLike b') : b.build = b'.build := by
  rw [build, build, h.options_eq, h.lists_eq, h.keys_eq]

/-- **A call that fails takes a builder nowhere.** -/
theorem skip (h : b.BuildsLike b') {c : Call} (hc : (b.add c).error? ≠ none) :
    (b.add c).builder.BuildsLike b' := by
  obtain ⟨-, -, hoptions, hlists, hkeys⟩ | ⟨entries, -, -, hnone, -⟩ := b.add_cases c
  · exact ⟨hoptions.trans h.options_eq, hlists.trans h.lists_eq, hkeys.trans h.keys_eq⟩
  · exact absurd hnone hc

/-- **Alike calls take builders to where they build alike.** -/
theorem add (h : b.BuildsLike b') {c c' : Call} (hc : c.Alike b.options.caseSensitive c') :
    (b.add c).builder.BuildsLike (b'.add c').builder := by
  obtain ⟨hlist, entries, entries', hentries, hentries', halike⟩ := hc
  have hplaces : b.lists.length = b'.lists.length := congrArg List.length h.lists_eq
  obtain ⟨hcause, -, hoptions, hlists, hkeys⟩ | ⟨found, hfound, hroom, -, hoptions, hlists, hkeys⟩ :=
    b.add_cases c <;>
  obtain ⟨hcause', -, hoptions', hlists', hkeys'⟩ |
    ⟨found', hfound', hroom', -, hoptions', hlists', hkeys'⟩ := b'.add_cases c'
  · exact ⟨hoptions.trans (h.options_eq.trans hoptions'.symm),
      hlists.trans (h.lists_eq.trans hlists'.symm), hkeys.trans (h.keys_eq.trans hkeys'.symm)⟩
  · rcases hcause with hnone | hfull
    · exact absurd (hnone.symm.trans hentries) nofun
    · omega
  · rcases hcause' with hnone | hfull
    · exact absurd (hnone.symm.trans hentries') nofun
    · omega
  · obtain rfl : found = entries := Option.some.inj (hfound.symm.trans hentries)
    obtain rfl : found' = entries' := Option.some.inj (hfound'.symm.trans hentries')
    refine ⟨?_, ?_, ?_⟩
    · rw [hoptions, hoptions', h.options_eq]
    · rw [hlists, hlists', h.lists_eq, hlist]
    · rw [hkeys, hkeys', ← h.options_eq, ← h.lists_eq, ← h.keys_eq]
      exact insertEntries_congr halike _ _ _ _

/-- **Alike histories build alike.** -/
theorem run_alike (h : b.BuildsLike b') {calls calls' : List Call}
    (hcalls : List.Forall₂ (Call.Alike b.options.caseSensitive) calls calls') :
    (b.run calls).BuildsLike (b'.run calls') := by
  induction calls generalizing b b' calls' with
  | nil =>
      obtain rfl := List.forall₂_nil_left_iff.mp hcalls
      exact h
  | cons c rest ih =>
      obtain ⟨c', rest', hc, hrest, rfl⟩ := List.forall₂_cons_left_iff.mp hcalls
      refine ih (h.add hc) ?_
      rwa [options_add]

end BuildsLike

/-! ### Calls that succeed -/

/-- The calls of a history that succeed, each told by its outcome when it is made. -/
def succeeded (b : DictionaryBuilder) : List Call → List Call
  | [] => []
  | c :: rest =>
    let more := (b.add c).builder.succeeded rest
    if (b.add c).error? = none then c :: more else more

/-- **The calls that succeed** are the accepted ones, as long as there are places for their lists. -/
theorem succeeded_eq_take (b : DictionaryBuilder) (calls : List Call) :
    b.succeeded calls =
      (calls.filter Call.isAccepted).take (placeLimit - b.lists.length) := by
  induction calls generalizing b with
  | nil => exact List.take_nil.symm
  | cons c rest ih =>
      rw [succeeded, ih]
      obtain ⟨hcause, herror, -, hlists, -⟩ | ⟨entries, hsome, hroom, hnone, -, hlists, -⟩ :=
        b.add_cases c
      · rw [if_neg (fun hnone => by simp [hnone] at herror), hlists]
        rcases hcause with hnone | hfull
        · rw [List.filter_cons_of_neg (by simp [Call.isAccepted, hnone])]
        · rw [Nat.sub_eq_zero_of_le hfull, List.take_zero, List.take_zero]
      · have haccepted : c.isAccepted = true := by simp [Call.isAccepted, hsome]
        have hplaces : placeLimit - b.lists.length = placeLimit - (b.lists.length + 1) + 1 := by
          omega
        rw [if_pos hnone, hlists, List.length_append, List.length_singleton,
          List.filter_cons_of_pos haccepted, hplaces, List.take_succ_cons]

/-- Of a history on an empty builder the accepted calls succeed. -/
theorem succeeded_empty (options : DictionaryOptions) (calls : List Call) :
    (empty options).succeeded calls = Call.accepted calls :=
  succeeded_eq_take (empty options) calls

/-- **Calls that fail may be left out.** -/
theorem BuildsLike.run_succeeded {b b' : DictionaryBuilder} (h : b.BuildsLike b')
    (calls : List Call) : (b.run calls).BuildsLike (b'.run (b.succeeded calls)) := by
  induction calls generalizing b b' with
  | nil => exact h
  | cons c rest ih =>
      rw [succeeded]
      by_cases hc : (b.add c).error? = none
      · rw [if_pos hc]
        have haccepted := ((Call.error?_add_eq_none_iff b c).mp hc).1
        exact ih (h.add (Call.alike_self haccepted _))
      · rw [if_neg hc]
        exact ih (h.skip hc)

/-- A dictionary depends on the calls that succeed. -/
theorem dictionary_succeeded (options : DictionaryOptions) (calls : List Call) :
    dictionary options calls = dictionary options ((empty options).succeeded calls) :=
  ((BuildsLike.refl (empty options)).run_succeeded calls).build_eq

/-- A marker of a built trie stands at a key of the call that its list was added by, with the
attributes of the last entry there. -/
theorem exists_call_of_mem_markersAt (options : DictionaryOptions) (calls : List Call) {place : Nat}
    {m : Marker} (hm : m ∈ (dictionary options calls).trie.markersAt place) :
    ∃ c entries key, (Call.accepted calls)[m.list]? = some c ∧
      c.entries? = some entries ∧ (dictionary options calls).trie.find? key = some place ∧
      lastAttributes options.caseSensitive entries key = some m.attributes := by
  have hholds := holds_run options calls
  have hsorted := hholds.keys_ordered.forest_sorted
  have hwf := wellFormed_dictionary options calls
  -- the node has a key, since its place is one of the layout
  have hplace : place < (dictionary options calls).trie.size := by
    refine Nat.lt_of_not_le fun hle => ?_
    rw [Trie.markersAt, Array.getElem?_eq_none hle] at hm
    exact absurd hm List.not_mem_nil
  obtain ⟨key, hkey⟩ : ∃ key, ((empty options).run calls).keys.keys[place]? = some key :=
    ⟨_, List.getElem?_eq_getElem (KeyTree.length_keys _ ▸ hplace)⟩
  have hfind : (dictionary options calls).trie.find? key = some place :=
    (KeyTree.find?_toTrie_eq_some_iff hsorted).mpr hkey
  have hattributes := hwf.attributesOf_markersAt hm
  rw [← Trie.markersFrom_of_findFrom hfind] at hattributes
  obtain ⟨c, hc, hentries⟩ := Option.bind_eq_some_iff.mp
    ((attributesOf_markers_dictionary options calls key m.list).symm.trans hattributes)
  obtain ⟨entries, hentries, hlast⟩ := Option.bind_eq_some_iff.mp hentries
  exact ⟨c, entries, key, hc, hentries, hfind, hlast⟩

/-- **Calls that fail leave no trace in the dictionary.** Whatever calls are made, the lists of the
builder are those of the calls that succeed, in order; each marker names the place of its own list,
to which the call that added it gave an entry with the key and the attributes; and those calls alone,
none of which fails then, build the same dictionary. -/
theorem failed_calls_leave_no_trace (options : DictionaryOptions) (calls : List Call) :
    ((empty options).run calls).lists = ((empty options).succeeded calls).map Call.list ∧
    (∀ place, ∀ m ∈ (dictionary options calls).trie.markersAt place,
      ∃ c entries key, ((empty options).succeeded calls)[m.list]? = some c ∧
        ((empty options).run calls).lists[m.list]? = some c.list ∧
        c.entries? = some entries ∧ (dictionary options calls).trie.find? key = some place ∧
        lastAttributes options.caseSensitive entries key = some m.attributes) ∧
    (empty options).succeeded ((empty options).succeeded calls) = (empty options).succeeded calls ∧
    dictionary options calls = dictionary options ((empty options).succeeded calls) := by
  have hlists : ((empty options).run calls).lists =
      ((empty options).succeeded calls).map Call.list := by
    rw [succeeded_empty]
    exact lists_dictionary options calls
  refine ⟨hlists, ?_, ?_, dictionary_succeeded options calls⟩
  · intro place m hm
    obtain ⟨c, entries, key, hc, hentries, hfind, hlast⟩ :=
      exists_call_of_mem_markersAt options calls hm
    rw [hlists, succeeded_empty, List.getElem?_map, hc]
    exact ⟨c, entries, key, rfl, rfl, hentries, hfind, hlast⟩
  · rw [succeeded_empty, succeeded_empty]
    exact Call.accepted_accepted calls

end DictionaryBuilder

end AnnotatedText
