import AnnotatedText.Proofs.Container.RoundTrip
import AnnotatedText.Proofs.Dictionary.Accepted
import AnnotatedText.Proofs.Matching.Merged

/-!
# Case is folded away

A dictionary that makes no difference between the cases folds tokens at three places: where its
entries are added, where keys are looked up in it, and where texts are scanned with it. Each time the
same is done to each token by itself. So what agrees token by token in lower case cannot be told
apart afterwards, whatever lower case does to a token: histories of alike calls build one dictionary,
and keys and texts that agree are looked up and scanned alike.

Such statements compare two runs. `Dictionary.CaseBlind` says of two dictionaries that nothing that is
asked of them tells them apart, nor cases. A dictionary that folds is case-blind to itself, so all that
is left to show of two dictionaries is that they are equal; that they come out of a container does
not change it, since a container is read as what was written or not at all.

## Main results

* `Dictionary.caseBlind_self`: folding on look-up and in texts.
* `DictionaryBuilder.dictionary_alike`: folding of entries.
* `DictionaryBuilder.case_is_folded_away`: all of it, for built dictionaries and their containers.
-/

namespace AnnotatedText

/-! ### Entries -/

/-- A given entry is kept or left out for its attributes and the number of its tokens. -/
theorem Entry.Alike.isKept_iff {caseSensitive : Bool} {e e' : Entry}
    (h : e.Alike caseSensitive e') (columns : List Column) :
    (e.tokens ≠ [] ∧ fitsColumns e.attributes columns = true) ↔
      (e'.tokens ≠ [] ∧ fitsColumns e'.attributes columns = true) := by
  have hlength : e.tokens.length = e'.tokens.length := by
    simpa only [Entry.key, List.length_map] using congrArg List.length h.key_eq
  rw [h.attributes_eq, ← List.length_pos_iff, ← List.length_pos_iff, hlength]

/-- Of alike entries alike ones are kept. -/
theorem forall₂_checkEntriesFrom {caseSensitive : Bool} (source : String) (columns : List Column)
    (number : Nat) {entries entries' : List Entry}
    (h : List.Forall₂ (Entry.Alike caseSensitive) entries entries') :
    List.Forall₂ (Entry.Alike caseSensitive)
      (harvest source (checkEntriesFrom columns number entries)).entries
      (harvest source (checkEntriesFrom columns number entries')).entries := by
  induction h generalizing number with
  | nil => exact .nil
  | cons he _ ih =>
      rw [checkEntriesFrom, checkEntriesFrom]
      simp only [he.isKept_iff columns]
      split
      · exact .cons he (ih (number + 1))
      · exact ih (number + 1)

/-- **Lists given with alike entries are added by alike calls.** -/
theorem Call.alike_given {caseSensitive : Bool} {list : SourceList} (hlist : list.typeName ≠ "")
    {entries entries' : List Entry}
    (h : List.Forall₂ (Entry.Alike caseSensitive) entries entries') :
    (⟨list, .given entries⟩ : Call).Alike caseSensitive ⟨list, .given entries'⟩ where
  list_eq := rfl
  entries_alike := ⟨_, _, if_neg hlist, if_neg hlist, forall₂_checkEntriesFrom list.name _ 1 h⟩

/-- **Histories whose successful calls are alike build one dictionary.** -/
theorem DictionaryBuilder.dictionary_alike {options : DictionaryOptions} {calls calls' : List Call}
    (h : List.Forall₂ (Call.Alike options.caseSensitive) ((empty options).succeeded calls)
      ((empty options).succeeded calls')) :
    dictionary options calls = dictionary options calls' := by
  rw [dictionary_succeeded options calls, dictionary_succeeded options calls']
  exact ((BuildsLike.refl (empty options)).run_alike h).build_eq

/-! ### Look-ups and scans -/

/-- What a worker has found: its matches, each with its attributes. -/
def Worker.findings (w : Worker) : List (Match × List Scalar) :=
  w.found.map fun m => (m, w.attributes m)

/-- Two dictionaries are **case-blind** to each other if they are equal, look-ups in them give the same
for keys that agree in lower case token by token, and scans with them find the same in texts whose
tokens agree so. -/
structure Dictionary.CaseBlind (d d' : Dictionary) : Prop where
  dictionary_eq : d = d'
  lookup_eq : ∀ key key' : List String, key.map Text.lowered = key'.map Text.lowered →
    d.lookup key = d'.lookup key'
  findings_eq : ∀ overlap scope (w w' : Worker), w.matcher = ⟨d, overlap, scope⟩ →
    w'.matcher = ⟨d', overlap, scope⟩ → ∀ text text',
      (tokenize text).map Text.lowered = (tokenize text').map Text.lowered →
        (w.reset text).scan.findings = (w'.reset text').scan.findings

/-- What a worker finds is found in the folded tokens of the text, in both scopes. -/
theorem Worker.findings_reset_scan {w : Worker} {m : Matcher} (hm : w.matcher = m) (text : String) :
    (w.reset text).scan.findings =
      (Scan.run m.dictionary m.scope m.overlap (m.dictionary.keysOf (tokenize text))).map fun found =>
        (found, (Trie.attributesOf (m.dictionary.trie.markersAt found.node) found.list).getD []) := by
  subst hm
  rw [Dictionary.keysOf, tokenize, List.map_map]
  rfl

/-- Tokens are folded to lower case. -/
theorem Dictionary.keysOf_eq {d : Dictionary} (hd : d.caseSensitive = false) (key : List String) :
    d.keysOf key = key.map Text.lowered := by
  rw [keysOf, hd]
  rfl

/-- **A dictionary that folds is blind to case** in look-ups and scans. -/
theorem Dictionary.caseBlind_self {d : Dictionary} (hd : d.caseSensitive = false) :
    d.CaseBlind d where
  dictionary_eq := rfl
  lookup_eq key key' h := by
    have hkeys : d.keysOf key = d.keysOf key' := by rw [keysOf_eq hd, keysOf_eq hd, h]
    rw [lookup_eq, lookup_eq, ← keysOf, ← keysOf, hkeys]
  findings_eq overlap scope w w' hw hw' text text' h := by
    have hkeys : d.keysOf (tokenize text) = d.keysOf (tokenize text') := by
      rw [keysOf_eq hd, keysOf_eq hd, h]
    rw [Worker.findings_reset_scan hw, Worker.findings_reset_scan hw', hkeys]

/-! ### Two histories -/

namespace DictionaryBuilder

/-- **Case is folded away.** Two histories without regard to case whose successful calls add the same
lists, with entries that have the same attributes and keys that agree in lower case, build case-blind
dictionaries. So are the dictionaries that are read from the containers of these, if the decoders of
the codec undo its encoders; and both can be read unless they are too large. -/
theorem case_is_folded_away {options : DictionaryOptions} (hoptions : options.caseSensitive = false)
    {calls calls' : List Call}
    (hcalls : List.Forall₂ (Call.Alike false) ((empty options).succeeded calls)
      ((empty options).succeeded calls'))
    {d d' : Dictionary} (hd : dictionary options calls = d)
    (hd' : dictionary options calls' = d') :
    d.CaseBlind d' ∧ ∀ k : Container.Codec,
      k.decode (k.encode (Container.content d)) = some (Container.content d) →
      (d.compress = true → ∀ limit,
        k.decompress limit (k.compress (k.encode (Container.content d))) =
          some ((k.encode (Container.content d)).take limit)) →
      (∀ e e', k.read (k.write d) = .ok e → k.read (k.write d') = .ok e' → e.CaseBlind e') ∧
        ((d.compress = true → (k.encode (Container.content d)).length ≤ Container.bodyLimit) →
          ∃ e e', k.read (k.write d) = .ok e ∧ k.read (k.write d') = .ok e') := by
  have hsame : d = d' := by
    rw [← hd, ← hd']
    exact dictionary_alike (hoptions ▸ hcalls)
  have hcase : d.caseSensitive = false := by
    rw [← hd, caseSensitive_dictionary, hoptions]
  have hwf : d.trie.WellFormed d.columns := by
    rw [← hd]
    exact wellFormed_dictionary options calls
  subst hsame
  have hblind := Dictionary.caseBlind_self hcase
  refine ⟨hblind, ?_⟩
  intro k harchive hframe
  refine ⟨?_, ?_⟩
  · intro e e' he he'
    obtain rfl := Container.Codec.eq_of_read_write harchive hframe he
    obtain rfl := Container.Codec.eq_of_read_write harchive hframe he'
    exact hblind
  · intro hlimit
    have hread := Container.Codec.read_write hwf harchive hframe hlimit
    exact ⟨d, d, hread, hread⟩

end DictionaryBuilder

/-! ### A street -/

namespace Sample

/-- A street in capitals. -/
def loudStreet : Call := ⟨⟨"streets", "demo.Street", []⟩, .given [⟨["ΟΔΟΣ", "İ"], []⟩]⟩

/-- The street in small letters: the last letter of a word has a form of its own, and a capital has
become two characters. -/
def quietStreet : Call := ⟨⟨"streets", "demo.Street", []⟩, .given [⟨["οδος", "i\u0307"], []⟩]⟩

end Sample

namespace DictionaryBuilder

/-- The street is found in either spelling, whichever it was added in, and with the dictionaries that
are read from the containers as well. -/
theorem street_is_folded_away :
    ∃ e e', Container.Codec.standard.read (Container.Codec.standard.write
        (dictionary ⟨false, true⟩ [Sample.loudStreet])) = .ok e ∧
      Container.Codec.standard.read (Container.Codec.standard.write
        (dictionary ⟨false, true⟩ [Sample.untyped, Sample.quietStreet])) = .ok e' ∧
      e.CaseBlind e' ∧
      (Worker.scanned ⟨dictionary ⟨false, true⟩ [Sample.loudStreet], false, .merged⟩
        "οδος İ").findings = [(⟨0, 2, 0, 2⟩, [])] := by
  have hloud : Sample.loudStreet.isAccepted = true := by decide +kernel
  have hquiet : Sample.quietStreet.isAccepted = true := by decide +kernel
  have huntyped : Sample.untyped.isAccepted = false := by decide +kernel
  have hentry : Entry.Alike false ⟨["ΟΔΟΣ", "İ"], []⟩ ⟨["οδος", "i\u0307"], []⟩ :=
    ⟨by decide +kernel, rfl⟩
  have hcalls : List.Forall₂ (Call.Alike false)
      ((empty ⟨false, true⟩).succeeded [Sample.loudStreet])
      ((empty ⟨false, true⟩).succeeded [Sample.untyped, Sample.quietStreet]) := by
    rw [succeeded_empty, succeeded_empty, Call.accepted_eq_filter (by decide),
      Call.accepted_eq_filter (by decide)]
    simp only [List.filter, hloud, hquiet, huntyped]
    exact .cons (Call.alike_given (by decide) (.cons hentry .nil)) .nil
  have harchive : Container.Codec.standard.decode (Container.Codec.standard.encode
      (Container.content (dictionary ⟨false, true⟩ [Sample.loudStreet]))) =
        some (Container.content (dictionary ⟨false, true⟩ [Sample.loudStreet])) := by
    decide +kernel
  have hframe : Frame.decode (Frame.encode (Container.Codec.standard.encode
      (Container.content (dictionary ⟨false, true⟩ [Sample.loudStreet])))) =
        some (Container.Codec.standard.encode
          (Container.content (dictionary ⟨false, true⟩ [Sample.loudStreet]))) := by
    decide +kernel
  have hlimit : (Container.Codec.standard.encode
      (Container.content (dictionary ⟨false, true⟩ [Sample.loudStreet]))).length ≤
        Container.bodyLimit := by
    decide +kernel
  obtain ⟨hblind, hcontainers⟩ := case_is_folded_away rfl hcalls rfl rfl
  obtain ⟨hread, hexists⟩ := hcontainers .standard harchive fun _ =>
    Container.Codec.decompress_standard hframe
  obtain ⟨e, e', he, he'⟩ := hexists fun _ => hlimit
  refine ⟨e, e', he, he', hread e e' he he', ?_⟩
  have hagree : (tokenize "οδος İ").map Text.lowered = (tokenize "ΟΔΟΣ İ").map Text.lowered := by
    decide +kernel
  have hfound : (Worker.scanned ⟨dictionary ⟨false, true⟩ [Sample.untyped, Sample.quietStreet],
      false, .merged⟩ "ΟΔΟΣ İ").findings = [(⟨0, 2, 0, 2⟩, [])] := by
    decide +kernel
  exact (hblind.findings_eq false .merged _ _ rfl rfl _ _ hagree).trans hfound

end DictionaryBuilder

end AnnotatedText
