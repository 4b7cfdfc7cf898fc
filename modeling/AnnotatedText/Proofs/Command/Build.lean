import AnnotatedText.Command.Build
import AnnotatedText.Proofs.Container.RoundTrip
import AnnotatedText.Proofs.Dictionary.Accepted
import AnnotatedText.Proofs.FileTree.Written
import AnnotatedText.Proofs.Lexicon.Accounts

/-!
# What the build command writes

The command adds a list for each specification and goes on when one cannot be added. Whether it can
be is told by its file and the arguments alone, `Build.isAddable`, so the dictionary is that of the
addable lists, in the order of the specifications, and the others leave nothing in it. It is written
as a container, by which it is read back; without an addable list, or with a delimiter that is no
character of ASCII, nothing is written at all.

The command does not go on when the reading of a lexicon is broken off. It then ends with nothing
written, whatever the other lists are (`wrapped_sum_ends_command`).

## Main results

* `Build.brokenOff_addLists_iff`, `Build.addLists_eq`: what adding the lists comes to.
* `Build.prepare_of_addable`: what is prepared is the dictionary of the addable lists.
* `Build.run_writes_addable`: what the command leaves in the file tree.
-/

namespace AnnotatedText.Build

open Container DictionaryBuilder

/-- The call by which the command adds the list of a specification. -/
def call (a : Args) (t : FileTree) (spec : ListSpec) : Call :=
  ⟨spec.toSourceList, .lexicon a.format (t.contentAt spec.path)⟩

/-- Whether the bytes are a text in the encoding. -/
def isDecodable (encoding : Encoding) (bytes : Bytes) : Bool :=
  match decodeLexicon encoding bytes with
  | .error _ => false
  | .ok _ => true

/-- Whether the list of a specification can be added: its file can be read and decoded, it has a
type, and its keys have a field. -/
def isAddable (a : Args) (t : FileTree) (spec : ListSpec) : Bool :=
  match t.contentAt spec.path with
  | .error _ => false
  | .ok bytes => isDecodable a.encoding bytes && spec.typeName ≠ "" && a.keyFields ≠ 0

/-- The specifications of the lists that can be added, as long as there are places for them. -/
def addable (a : Args) (t : FileTree) : List ListSpec :=
  (a.lists.filter (isAddable a t)).take placeLimit

/-- The dictionary of the lists that can be added. -/
def addableDictionary (a : Args) (t : FileTree) : Dictionary :=
  dictionary a.options ((addable a t).map (call a t))

/-- No lexicon is met whose reading is broken off. -/
def ReadsOn (a : Args) (t : FileTree) : Prop := ∀ spec ∈ a.lists, (call a t spec).breaksOff = false

variable {k : Codec} {a : Args} {t : FileTree}

/-! ### Adding the lists -/

/-- The call of a specification whose reading is not broken off is accepted if and only if its list
can be added. -/
theorem isAccepted_call {spec : ListSpec} (h : (call a t spec).breaksOff = false) :
    (call a t spec).isAccepted = isAddable a t spec := by
  rw [Call.breaksOff] at h
  rw [Call.isAccepted, Call.entries?, isAddable]
  simp only [Call.reading?, call, ListSpec.toSourceList, Args.format] at h ⊢
  by_cases htype : spec.typeName = ""
  · cases t.contentAt spec.path <;> simp [htype]
  · cases hcontent : t.contentAt spec.path with
    | error e => simp [htype]
    | ok bytes =>
        by_cases hkey : a.keyFields = 0
        · simp [htype, hkey]
        · cases hdecode : decodeLexicon a.encoding bytes with
          | error fault => simp [isDecodable, htype, hkey, hdecode]
          | ok text =>
              simp only [hcontent, hkey, hdecode, if_false] at h
              split at h
              · cases h
              · rename_i found hread
                simp [isDecodable, htype, hkey, hdecode, Option.some.inj hread]
              · rename_i hread
                cases hread

/-- No reading is broken off if the fields of the key and the columns are counted by a word. -/
theorem breaksOff_call_eq_false {spec : ListSpec}
    (h : a.keyFields + spec.columns.length < UInt64.size) : (call a t spec).breaksOff = false := by
  rw [Call.breaksOff]
  simp only [Call.reading?, call]
  cases t.contentAt spec.path with
  | error e => rfl
  | ok bytes =>
      by_cases hkey : a.format.keyFields = 0
      · simp only [hkey, if_true]
      · cases hdecode : decodeLexicon a.format.encoding bytes with
        | error fault => simp only [hkey, if_false, hdecode]
        | ok text =>
            obtain ⟨found, hread⟩ :
                ∃ found, readLexicon spec.toSourceList a.format text = .ok found :=
              exists_readLexicon_eq_ok h text
            simp only [hkey, if_false, hdecode, hread]

/-- Behind a list whose reading is not broken off the others are added. -/
theorem exists_addLists_cons {spec : ListSpec} (h : (call a t spec).breaksOff = false)
    (rest : List ListSpec) (b : DictionaryBuilder) :
    ∃ events, addLists a.format t.contentAt (spec :: rest) b =
      { addLists a.format t.contentAt rest (b.add (call a t spec)).builder with events := events } := by
  have hon : (b.add (call a t spec)).error? ≠ some .brokenOff := fun hbroken => by
    rw [Call.error?_add_eq_brokenOff_iff, h] at hbroken
    cases hbroken
  exact ⟨_, if_neg hon⟩

/-- Adding the lists is broken off if and only if a reading is. -/
theorem brokenOff_addLists_iff {specs : List ListSpec} {b : DictionaryBuilder} :
    (addLists a.format t.contentAt specs b).brokenOff = true ↔
      ∃ spec ∈ specs, (call a t spec).breaksOff = true := by
  induction specs generalizing b with
  | nil => simp [addLists]
  | cons spec rest ih =>
      rw [List.exists_mem_cons_iff]
      cases hspec : (call a t spec).breaksOff with
      | true =>
          have hbroken := (Call.error?_add_eq_brokenOff_iff b (call a t spec)).mpr hspec
          have hstop : (addLists a.format t.contentAt (spec :: rest) b).brokenOff = true :=
            congrArg ListsAdded.brokenOff (if_pos hbroken)
          exact iff_of_true hstop (.inl rfl)
      | false =>
          obtain ⟨events, hadded⟩ := exists_addLists_cons hspec rest b
          rw [hadded, or_iff_right Bool.false_ne_true]
          exact ih

/-- If none is, adding the lists is a history of their calls. -/
theorem builder_addLists {specs : List ListSpec}
    (h : ∀ spec ∈ specs, (call a t spec).breaksOff = false) (b : DictionaryBuilder) :
    (addLists a.format t.contentAt specs b).builder = b.run (specs.map (call a t)) := by
  induction specs generalizing b with
  | nil => rfl
  | cons spec rest ih =>
      obtain ⟨hspec, hrest⟩ := List.forall_mem_cons.mp h
      obtain ⟨events, hadded⟩ := exists_addLists_cons hspec rest b
      rw [hadded]
      exact ih hrest _

/-- The accepted calls are those of the addable lists. -/
theorem accepted_map_call (h : ReadsOn a t) :
    Call.accepted (a.lists.map (call a t)) = (addable a t).map (call a t) := by
  rw [Call.accepted, List.filter_map, addable, List.map_take]
  refine congrArg (List.take placeLimit ∘ List.map _) (List.filter_congr fun spec hspec => ?_)
  exact isAccepted_call (h spec hspec)

/-- The lists of the builder are those that can be added. -/
theorem lists_run_map_call (h : ReadsOn a t) :
    ((empty a.options).run (a.lists.map (call a t))).lists =
      (addable a t).map ListSpec.toSourceList := by
  rw [(holds_run a.options _).lists_eq, accepted_map_call h, List.map_map]
  rfl

/-- The lists that cannot be added make no difference to the dictionary. -/
theorem build_run_map_call (h : ReadsOn a t) :
    ((empty a.options).run (a.lists.map (call a t))).build = addableDictionary a t := by
  rw [addableDictionary, ← accepted_map_call h, ← succeeded_empty]
  exact dictionary_succeeded a.options _

/-- The lists are added without an end to the command, and the addable ones make the dictionary. -/
theorem addLists_eq (h : ReadsOn a t) :
    (addLists a.format t.contentAt a.lists (empty a.options)).brokenOff = false ∧
      (addLists a.format t.contentAt a.lists (empty a.options)).builder.lists =
        (addable a t).map ListSpec.toSourceList ∧
      (addLists a.format t.contentAt a.lists (empty a.options)).builder.build =
        addableDictionary a t := by
  refine ⟨Bool.eq_false_iff.mpr fun hbroken => ?_, ?_, ?_⟩
  · obtain ⟨spec, hspec, hbreaks⟩ := brokenOff_addLists_iff.mp hbroken
    exact absurd ((h spec hspec).symm.trans hbreaks) Bool.false_ne_true
  · rw [builder_addLists h, lists_run_map_call h]
  · rw [builder_addLists h, build_run_map_call h]

/-! ### Preparing the dictionary -/

/-- A delimiter that is not ASCII is refused before any list is read. -/
theorem prepare_of_not_ascii (h : 128 ≤ a.delimiter.toNat)
    (read : String → Except PathError Bytes) :
    (prepare a read).result = .error (.invalidDelimiter a.delimiter) := by
  rw [prepare, if_pos h]

/-- Where the reading of a lexicon is broken off, so is the command. -/
theorem prepare_of_breaksOff (hascii : a.delimiter.toNat < 128) {spec : ListSpec}
    (hspec : spec ∈ a.lists) (h : (call a t spec).breaksOff = true) :
    (prepare a t.contentAt).result = .error .brokenOff := by
  have hbroken : (addLists a.format t.contentAt a.lists (empty a.options)).brokenOff = true :=
    brokenOff_addLists_iff.mpr ⟨spec, hspec, h⟩
  rw [prepare, if_neg (Nat.not_le_of_lt hascii)]
  simp only [hbroken, if_true]

/-- **Where no list can be added, none is loaded.** -/
theorem prepare_of_not_addable (hascii : a.delimiter.toNat < 128) (hon : ReadsOn a t)
    (h : addable a t = []) :
    (prepare a t.contentAt).result = .error (.noListLoaded a.lists.length) := by
  obtain ⟨hwhole, hlists, -⟩ := addLists_eq hon
  rw [h, List.map_nil] at hlists
  rw [prepare, if_neg (Nat.not_le_of_lt hascii)]
  simp only [hwhole, hlists, Bool.false_eq_true, if_true, if_false]

/-- **The dictionary of the addable lists is prepared**, if there are any and there are places for the
nodes of its trie. -/
theorem prepare_of_addable (hascii : a.delimiter.toNat < 128) (hon : ReadsOn a t)
    (h : addable a t ≠ []) :
    (prepare a t.contentAt).result =
      if (addableDictionary a t).trie.size ≤ placeLimit then .ok (addableDictionary a t)
      else .error (.unbuildable .noPlace) := by
  obtain ⟨hwhole, hlists, hbuild⟩ := addLists_eq hon
  have hsome : (addLists a.format t.contentAt a.lists (empty a.options)).builder.lists ≠ [] := by
    rw [hlists]
    exact fun hnil => h (List.map_eq_nil_iff.mp hnil)
  have hfinish : (addLists a.format t.contentAt a.lists (empty a.options)).builder.finish =
      if (addableDictionary a t).trie.size ≤ placeLimit then .ok (addableDictionary a t)
      else .error .noPlace := by
    rw [← hbuild]
    rfl
  rw [prepare, if_neg (Nat.not_le_of_lt hascii)]
  simp only [hwhole, hsome, hfinish, Bool.false_eq_true, if_false]
  by_cases hroom : (addableDictionary a t).trie.size ≤ placeLimit
  · simp only [hroom, if_true]
  · simp only [hroom, if_false]

/-! ### The command -/

/-- A command for which nothing can be prepared leaves the file tree as it is. -/
theorem run_of_prepare_error {e : Fault} (h : (prepare a t.contentAt).result = .error e) :
    (run k a t).1.result = .error e ∧ (run k a t).2 = t := by
  simp only [run, h, and_self]

/-- What is prepared is written to a writable output. -/
theorem run_of_prepare_ok {d : Dictionary} (h : (prepare a t.contentAt).result = .ok d)
    (houtput : t.IsWritable a.output) :
    (run k a t).1.result = .ok () ∧ (run k a t).2.read a.output = .ok (k.write d) := by
  obtain ⟨made, after, hmade, hwrite⟩ := houtput.exists_write (k.write d)
  have hsave : d.save k made a.output = .ok after := hwrite
  simp only [run, h, hmade, hsave, true_and]
  exact FileTree.read_of_write hwrite

/-- The list at each place of the dictionary is an addable one, and has its own entries there. -/
theorem attributesOf_addableDictionary (h : ReadsOn a t) (key : List String) (list : Nat) :
    Trie.attributesOf ((addableDictionary a t).trie.markers key) list =
      (addable a t)[list]?.bind fun spec => (call a t spec).entries?.bind fun entries =>
        lastAttributes (!a.ignoreCase) entries key := by
  have haccepted : Call.accepted ((addable a t).map (call a t)) = (addable a t).map (call a t) := by
    rw [← accepted_map_call h, Call.accepted_accepted]
  rw [addableDictionary, attributesOf_markers_dictionary, haccepted, List.getElem?_map,
    Option.bind_map]
  rfl

/-- **The command writes the dictionary of the lists that can be added.** With a delimiter that is
no character of ASCII, or without an addable list, it fails and the file tree stays as it is.
Otherwise, if the output is writable, it succeeds, and the output is the container of the dictionary
of the addable lists alone: its lists are those of their specifications, in order and without gaps,
and each has the attributes of its own entries there. It only fails if the trie has more nodes than
there are places.

This is so unless the reading of a lexicon is broken off, which ends the command, whatever the other
lists are, with the file tree as it was. No reading is as long as the fields of the key and the
columns are counted by a word of 64 bits.

If archives and compressed forms are undone by reading them, nothing but this dictionary is read
from the output, and it is read unless its archive is larger than a reader decompresses. -/
theorem run_writes_addable (k : Codec) (a : Args) (t : FileTree) :
    (128 ≤ a.delimiter.toNat →
      (run k a t).1.result = .error (.invalidDelimiter a.delimiter) ∧ (run k a t).2 = t) ∧
    (a.delimiter.toNat < 128 → (∃ spec ∈ a.lists, (call a t spec).breaksOff = true) →
      (run k a t).1.result = .error .brokenOff ∧ (run k a t).2 = t) ∧
    ((∀ spec ∈ a.lists, a.keyFields + spec.columns.length < UInt64.size) → ReadsOn a t) ∧
    (a.delimiter.toNat < 128 → ReadsOn a t → addable a t = [] →
      (run k a t).1.result = .error (.noListLoaded a.lists.length) ∧ (run k a t).2 = t) ∧
    (a.delimiter.toNat < 128 → ReadsOn a t → addable a t ≠ [] →
      placeLimit < (addableDictionary a t).trie.size →
        (run k a t).1.result = .error (.unbuildable .noPlace) ∧ (run k a t).2 = t) ∧
    (a.delimiter.toNat < 128 → ReadsOn a t → addable a t ≠ [] →
      (addableDictionary a t).trie.size ≤ placeLimit → t.IsWritable a.output →
      (run k a t).1.result = .ok () ∧
      (run k a t).2.read a.output = .ok (k.write (addableDictionary a t)) ∧
      (addableDictionary a t).lists = (addable a t).map ListSpec.toSourceList ∧
      (∀ key list, Trie.attributesOf ((addableDictionary a t).trie.markers key) list =
        (addable a t)[list]?.bind fun spec => (call a t spec).entries?.bind fun entries =>
          lastAttributes (!a.ignoreCase) entries key) ∧
      (k.decode (k.encode (content (addableDictionary a t))) =
          some (content (addableDictionary a t)) →
        (a.noCompress = false → ∀ limit,
          k.decompress limit (k.compress (k.encode (content (addableDictionary a t)))) =
            some ((k.encode (content (addableDictionary a t))).take limit)) →
        (∀ d, k.read (k.write (addableDictionary a t)) = .ok d → d = addableDictionary a t) ∧
        ((a.noCompress = false →
            (k.encode (content (addableDictionary a t))).length ≤ bodyLimit) →
          k.read (k.write (addableDictionary a t)) = .ok (addableDictionary a t)))) := by
  refine ⟨fun hdelimiter => ?_, fun hascii ⟨spec, hspec, hbreaks⟩ => ?_, fun hword spec hspec => ?_,
    fun hascii hon hnone => ?_, fun hascii hon hsome hlarge => ?_,
    fun hascii hon hsome hroom houtput => ?_⟩
  · exact run_of_prepare_error (prepare_of_not_ascii hdelimiter _)
  · exact run_of_prepare_error (prepare_of_breaksOff hascii hspec hbreaks)
  · exact breaksOff_call_eq_false (hword spec hspec)
  · exact run_of_prepare_error (prepare_of_not_addable hascii hon hnone)
  · refine run_of_prepare_error ((prepare_of_addable hascii hon hsome).trans ?_)
    exact if_neg (Nat.not_le_of_lt hlarge)
  · obtain ⟨hresult, hread⟩ := run_of_prepare_ok
      ((prepare_of_addable hascii hon hsome).trans (if_pos hroom)) houtput
    have hlists : (addableDictionary a t).lists = (addable a t).map ListSpec.toSourceList := by
      rw [← build_run_map_call hon]
      exact lists_run_map_call hon
    have hcompress : (addableDictionary a t).compress = true → a.noCompress = false := by
      rw [addableDictionary, dictionary, build, (holds_run a.options _).options_eq]
      exact fun h => by simpa [Args.options] using h
    refine ⟨hresult, hread, hlists, attributesOf_addableDictionary hon, fun harchive hframe => ?_⟩
    have hdecompress := fun h => hframe (hcompress h)
    constructor
    · exact fun d hd => Codec.eq_of_read_write harchive hdecompress hd
    · intro hlimit
      exact Codec.read_write (wellFormed_dictionary a.options _) harchive hdecompress
        fun h => hlimit (hcompress h)

namespace Sample

/-- The arguments for two lists, the file of one of which is missing. -/
def args : Args :=
  ⟨[⟨"missing.txt", "demo.City", []⟩, ⟨"names.txt", "demo.Person", []⟩], "out/nested/names.mtwl",
    ';', 1, .utf8, false, false⟩

/-- A working directory with the file of the other one. -/
def tree : FileTree := ⟨[(["names.txt"], .file (Text.encode "Peter\nMarshall\n"))]⟩

/-- The working directory with the directories above the output. -/
def made : FileTree := ⟨[(["out", "nested"], .directory), (["out"], .directory)] ++ tree.nodes⟩

/-- The arguments for the other one alone, with two columns and more fields of the key than a line has,
so that their number wraps around to one. -/
def wrapped : Args :=
  ⟨[⟨"names.txt", "demo.Person", [⟨"x", .string⟩, ⟨"y", .string⟩]⟩], "names.mtwl", ';',
    18446744073709551615, .utf8, false, true⟩

end Sample

/-- A missing file does not keep the other list from being written, into a directory that is made
for it, and it is the first list of what is read back. -/
theorem run_writes_names :
    Sample.args.delimiter.toNat < 128 ∧ ReadsOn Sample.args Sample.tree ∧
      addable Sample.args Sample.tree ≠ [] ∧ Sample.tree.IsWritable Sample.args.output ∧
      (run .standard Sample.args Sample.tree).1.result = .ok () ∧
      ∃ bytes d, (run .standard Sample.args Sample.tree).2.read "out/nested/names.mtwl" =
          .ok bytes ∧
        Codec.standard.read bytes = .ok d ∧ d.lists = [⟨"names.txt", "demo.Person", []⟩] ∧
        Trie.attributesOf (d.trie.markers ["Peter"]) 0 = some [] := by
  have hascii : Sample.args.delimiter.toNat < 128 := by decide
  have haddable : addable Sample.args Sample.tree = [⟨"names.txt", "demo.Person", []⟩] := by
    decide +kernel
  have hsome : addable Sample.args Sample.tree ≠ [] := by simp [haddable]
  have hroom : (addableDictionary Sample.args Sample.tree).trie.size ≤ placeLimit := by
    decide +kernel
  have houtput : Sample.tree.IsWritable Sample.args.output :=
    ⟨Sample.made, by decide +kernel, [], _, rfl⟩
  have harchive : Codec.standard.decode (Codec.standard.encode
      (content (addableDictionary Sample.args Sample.tree))) =
        some (content (addableDictionary Sample.args Sample.tree)) := by
    decide +kernel
  have hframe : Frame.decode (Frame.encode (Codec.standard.encode
      (content (addableDictionary Sample.args Sample.tree)))) =
        some (Codec.standard.encode
          (content (addableDictionary Sample.args Sample.tree))) := by
    decide +kernel
  have hlimit : (Codec.standard.encode
      (content (addableDictionary Sample.args Sample.tree))).length ≤ bodyLimit := by
    decide +kernel
  obtain ⟨-, -, hword, -, -, hrun⟩ := run_writes_addable .standard Sample.args Sample.tree
  have hon : ReadsOn Sample.args Sample.tree := hword (by decide)
  obtain ⟨hresult, hread, hlists, -, hback⟩ := hrun hascii hon hsome hroom houtput
  obtain ⟨-, hwhole⟩ := hback harchive fun _ => Codec.decompress_standard hframe
  refine ⟨hascii, hon, hsome, houtput, hresult, _, _, hread, hwhole fun _ => hlimit, ?_, ?_⟩
  · rw [hlists, haddable]
    decide +kernel
  · decide +kernel

/-- With two columns beside more fields of the key than any line has, the command ends at a line of
one field and writes nothing, though the list can be added and the output is writable. -/
theorem wrapped_sum_ends_command :
    ¬ ∀ (k : Codec) (a : Args) (t : FileTree), a.delimiter.toNat < 128 → addable a t ≠ [] →
      t.IsWritable a.output → (run k a t).1.result = .ok () := by
  intro h
  have hresult := h .standard Sample.wrapped Sample.tree (by decide) (by decide +kernel)
    ⟨Sample.tree, by decide +kernel, [], _, rfl⟩
  have hbroken : (run .standard Sample.wrapped Sample.tree).1.result = .error .brokenOff := by
    decide +kernel
  exact absurd (hbroken.symm.trans hresult) nofun

end AnnotatedText.Build
