import AnnotatedText.Lexicon.Writing
import AnnotatedText.Proofs.Lexicon.Entries
import AnnotatedText.Proofs.Lexicon.Lines
import AnnotatedText.Proofs.Row.Fields
import AnnotatedText.Proofs.Sentence.Joined
import AnnotatedText.Proofs.Text.Numbers

/-!
# Written lexicons

Entries that are written as a lexicon are read back from its bytes. Each entry gives one line: no
field of it holds a line feed, the line begins and ends with a quote, and so it is neither blank nor
a comment, and nothing is cut off its end. The quotes keep the fields as they are, the key falls
into its tokens again, and an attribute is what is read from its plain text. The last does not hold
of doubles, whose text can be that of another one.

## Main results

* `Scalar.read?_display`: a scalar that is no double is read back from its plain text.
* `readLexicon_writeLexicon`: entries are read back from the lexicon they are written as.
-/

namespace AnnotatedText

/-- **A scalar that is no double is read back from its plain text.** -/
theorem Scalar.read?_display {v : Scalar} (h : v.kind ≠ .double) :
    Scalar.read? v.display v.kind = some v := by
  cases v with
  | string s => rfl
  | integer i =>
      have htrim := Text.trim_eq_self fun c hc => Text.isBlank_of_mem_toString (i := i.toInt) hc
      have hread : Text.readInteger 31 (toString i.toInt).toList = some i.toInt :=
        Text.readInteger_toString i.le_toInt i.toInt_lt
      show (Text.readInteger 31 (Text.trim (toString i.toInt).toList)).map _ = _
      rw [htrim, hread, Option.map_some, Int32.ofInt_toInt]
  | boolean b => cases b <;> decide
  | double d => exact absurd rfl h

/-- An entry is **writable** for columns if it is proper for them, its key is that of a text, and no
string among its attributes holds a line feed. -/
structure Entry.Writable (columns : List Column) (e : Entry) : Prop extends e.Proper columns where
  tokens_eq : ∃ s, e.tokens = tokenize s
  one_line : ∀ s, .string s ∈ e.attributes → '\n' ∉ s.toList

/-- What values display, read as their columns say, is the values themselves, unless they are
doubles. -/
theorem map_some_eq_zipWith_display {columns : List Column}
    (hcolumns : ∀ c ∈ columns, c.kind ≠ .double) {values : List Scalar}
    (h : values.map Scalar.kind = columns.map Column.kind) :
    values.map some = List.zipWith (fun literal column => Scalar.read? literal column.kind)
      (values.map Scalar.display) columns := by
  induction values generalizing columns with
  | nil => rfl
  | cons v values ih =>
      cases columns with
      | nil => cases h
      | cons column columns =>
          obtain ⟨hkind, hrest⟩ := List.cons.inj h
          obtain ⟨hcolumn, hcolumns⟩ := List.forall_mem_cons.mp hcolumns
          have hread := Scalar.read?_display (v := v) (hkind ▸ hcolumn)
          rw [hkind] at hread
          rw [List.map_cons, List.map_cons, List.zipWith_cons_cons, hread, ih hcolumns hrest]

section

variable {columns : List Column} {e : Entry}

/-- The attributes of a proper entry are of the kinds of the columns. -/
theorem Entry.Proper.kinds_eq (h : e.Proper columns) :
    e.attributes.map Scalar.kind = columns.map Column.kind := by
  simpa [fitsColumns] using h.fits

/-- The fields of an entry are what it is formed of. -/
theorem Entry.Writable.formedOf (hcolumns : ∀ c ∈ columns, c.kind ≠ .double)
    (h : e.Writable columns) : e.FormedOf 1 columns e.fields := by
  have hcount : e.attributes.length = columns.length := by
    simpa using congrArg List.length h.kinds_eq
  refine ⟨?_, ?_, h.has_tokens, ?_⟩
  · rw [Entry.fields, List.length_cons, List.length_map, hcount, Nat.add_comm]
  · obtain ⟨s, hs⟩ := h.tokens_eq
    rw [Entry.fields, List.take_succ_cons, List.take_zero, String.intercalate_singleton, hs,
      tokenize_intercalate_tokenize]
  · rw [Entry.fields, List.drop_succ_cons, List.drop_zero]
    exact map_some_eq_zipWith_display hcolumns h.kinds_eq

/-! ### The line of an entry -/

/-- Texts that are joined by blanks hold no other blank. -/
theorem isBlank_of_mem_intercalate {texts : List String}
    (h : ∀ t ∈ texts, ∀ c ∈ t.toList, Text.isBlank c = false) {c : Char}
    (hc : c ∈ (" ".intercalate texts).toList) : c = ' ' ∨ Text.isBlank c = false := by
  rw [String.toList_intercalate] at hc
  obtain rfl | ⟨part, hpart, hc⟩ := Text.mem_intercalate hc
  · exact .inl rfl
  · obtain ⟨t, ht, rfl⟩ := List.mem_map.mp hpart
    exact .inr (h t ht c hc)

/-- No token holds a blank. -/
theorem isBlank_of_mem_tokenize {s t : String} (ht : t ∈ tokenize s) {c : Char}
    (hc : c ∈ t.toList) : Text.isBlank c = false := by
  rw [tokenize_eq] at ht
  obtain ⟨r, hr, rfl⟩ := List.mem_map.mp ht
  obtain ⟨hr, hblank⟩ := List.mem_filter.mp hr
  rw [String.toList_ofList] at hc
  have hclass := classify_of_mem_runs hr hc
  refine Bool.eq_false_iff.mpr fun h => ?_
  rw [CharClass.of, if_pos h] at hclass
  exact absurd hclass.symm (by simpa using hblank)

/-- No field of a writable entry holds a line feed. -/
theorem Entry.Writable.notMem_fields (h : e.Writable columns)
    (hcolumns : ∀ c ∈ columns, c.kind ≠ .double) {field : String} (hfield : field ∈ e.fields) :
    '\n' ∉ field.toList := by
  intro hc
  have hblank : Text.isBlank '\n' = true := by decide
  rcases List.mem_cons.mp hfield with rfl | hfield
  · obtain ⟨s, hs⟩ := h.tokens_eq
    rw [hs] at hc
    rcases isBlank_of_mem_intercalate (fun t ht c => isBlank_of_mem_tokenize ht) hc with hc | hc
    · exact absurd hc (by decide)
    · exact absurd (hblank.symm.trans hc) (by decide)
  · obtain ⟨v, hv, rfl⟩ := List.mem_map.mp hfield
    cases v with
    | string s => exact h.one_line s hv hc
    | integer i => exact absurd (hblank.symm.trans (Text.isBlank_of_mem_toString hc)) (by decide)
    | boolean b => cases b <;> exact absurd hc (by decide)
    | double d =>
        have hkind : (Scalar.double d).kind ∈ columns.map Column.kind :=
          h.kinds_eq ▸ List.mem_map_of_mem hv
        obtain ⟨column, hcolumn, hdouble⟩ := List.mem_map.mp hkind
        exact hcolumns column hcolumn hdouble

variable {delimiter : UInt8}

/-- An entry has at least the field of its key. -/
theorem Entry.fields_ne_nil (e : Entry) : e.fields ≠ [] := List.cons_ne_nil _ _

/-- The line of an entry is neither blank nor a comment. -/
theorem isPassedOver_encloseAll (delimiter : UInt8) (e : Entry) :
    isPassedOver (Row.encloseAll delimiter e.fields) = false := by
  obtain ⟨rest, hrest⟩ := Row.exists_encloseAll delimiter e.fields_ne_nil
  have hblank : Text.isBlank '"' = false := by decide
  rw [hrest, isPassedOver, Text.allBlank, List.all_cons, hblank]
  rfl

/-- **The line of a writable entry is read as the entry.** -/
theorem Entry.Writable.readEntry_encloseAll (h : e.Writable columns)
    (hcolumns : ∀ c ∈ columns, c.kind ≠ .double) (hdelimiter : Row.Separates delimiter)
    (encoding : Encoding) :
    readEntry ⟨delimiter, 1, encoding⟩ columns (Row.encloseAll delimiter e.fields) =
      some (.ok e) := by
  refine readEntry_eq_some_ok_iff.mpr ?_
  rw [Row.fields_encloseAll hdelimiter e.fields_ne_nil]
  exact h.formedOf hcolumns

/-- It is one line, and no part of it is taken for its ending. -/
theorem Entry.Writable.isLine_encloseAll (h : e.Writable columns)
    (hcolumns : ∀ c ∈ columns, c.kind ≠ .double) (hdelimiter : Row.Separates delimiter) :
    '\n' ∉ Row.encloseAll delimiter e.fields ∧
      (Row.encloseAll delimiter e.fields).getLast? ≠ some '\r' := by
  constructor
  · intro hc
    rcases Row.mem_encloseAll hc with hc | hc | ⟨field, hfield, hc⟩
    · exact absurd hc (by decide)
    · exact hdelimiter.mark_ne.2 hc.symm
    · exact h.notMem_fields hcolumns hfield hc
  · rw [Row.getLast?_encloseAll delimiter e.fields_ne_nil]
    decide

end

/-! ### Whole lexicons -/

variable {list : SourceList} {delimiter : UInt8} {entries : List Entry}

/-- A written lexicon does not begin with a byte order mark, so its bytes are read as its text. -/
theorem decodeLexicon_writeLexicon (delimiter : UInt8) (entries : List Entry) :
    decodeLexicon .utf8 (Text.encode (writeLexicon delimiter entries)) =
      .ok (writeLexicon delimiter entries) := by
  have hmark : (writeLexicon delimiter entries).toList.head? ≠ some '\ufeff' := by
    rw [writeLexicon, String.toList_ofList]
    cases entries with
    | nil => simp
    | cons e rest =>
        obtain ⟨line, hline⟩ := Row.exists_encloseAll delimiter e.fields_ne_nil
        rw [List.flatMap_cons, hline]
        exact fun heq => absurd (Option.some.inj heq) (by decide)
  rw [decodeLexicon, Text.encode, Text.dropByteOrderMark_encodeChars hmark]
  exact Text.decode_encode _

/-- Lines of writable entries give the entries, whatever the number of the first. -/
theorem readLines_map_encloseAll (hdelimiter : Row.Separates delimiter)
    (hcolumns : ∀ c ∈ list.columns, c.kind ≠ .double)
    (hentries : ∀ e ∈ entries, e.Writable list.columns) (encoding : Encoding) (number : Nat) :
    readLines list ⟨delimiter, 1, encoding⟩ number
      (entries.map fun e => Row.encloseAll delimiter e.fields) = .ok ⟨entries, []⟩ := by
  induction entries generalizing number with
  | nil => rfl
  | cons e rest ih =>
      obtain ⟨he, hrest⟩ := List.forall_mem_cons.mp hentries
      rw [List.map_cons, readLines_cons, readLine, isPassedOver_encloseAll delimiter e,
        he.readEntry_encloseAll hcolumns hdelimiter, if_neg Bool.false_ne_true,
        ih hrest (number + 1)]
      rfl

/-- **Entries are read back from the lexicon they are written as**, all of them, in order and
without a diagnostic. -/
theorem readLexicon_writeLexicon (hdelimiter : Row.Separates delimiter)
    (hcolumns : ∀ c ∈ list.columns, c.kind ≠ .double)
    (hentries : ∀ e ∈ entries, e.Writable list.columns) :
    (decodeLexicon .utf8 (Text.encode (writeLexicon delimiter entries))).map
      (readLexicon list ⟨delimiter, 1, .utf8⟩) = .ok (.ok ⟨entries, []⟩) := by
  have hlines : lexiconLines (writeLexicon delimiter entries) =
      entries.map fun e => Row.encloseAll delimiter e.fields := by
    rw [writeLexicon, ← List.flatMap_map (fun e : Entry => Row.encloseAll delimiter e.fields)
      (· ++ ['\n'])]
    refine lexiconLines_flatMap fun line hline => ?_
    obtain ⟨e, he, rfl⟩ := List.mem_map.mp hline
    exact (hentries e he).isLine_encloseAll hcolumns hdelimiter
  have hread := readLines_map_encloseAll hdelimiter hcolumns hentries .utf8 1
  rw [← hlines] at hread
  rw [decodeLexicon_writeLexicon]
  exact congrArg Except.ok hread

namespace Sample

/-- Columns of all kinds but doubles. -/
def rowColumns : List Column := [⟨"note", .string⟩, ⟨"count", .integer⟩, ⟨"known", .boolean⟩]

/-- An entry with a string in which quotes, delimiters and carriage returns stand. -/
def rowEntry : Entry :=
  ⟨["St", ".", "Ives"], [.string "// \"a\";b\r", .integer (-17), .boolean true]⟩

end Sample

/-- Quotes, delimiters and carriage returns inside a string survive, and so do entries of one key. -/
theorem readLexicon_writeLexicon_sample :
    Row.Separates 0x3B ∧ (∀ c ∈ Sample.rowColumns, c.kind ≠ .double) ∧
      (∀ e ∈ [Sample.rowEntry, Sample.rowEntry], e.Writable Sample.rowColumns) ∧
      (decodeLexicon .utf8 (Text.encode (writeLexicon 0x3B [Sample.rowEntry, Sample.rowEntry]))).map
        (readLexicon ⟨"rows", "demo.Place", Sample.rowColumns⟩ .standard) =
          .ok (.ok ⟨[Sample.rowEntry, Sample.rowEntry], []⟩) := by
  have hdelimiter : Row.Separates 0x3B := ⟨by decide, by decide, by decide⟩
  have hcolumns : ∀ c ∈ Sample.rowColumns, c.kind ≠ .double := by decide
  have hentry : Sample.rowEntry.Writable Sample.rowColumns := by
    refine ⟨⟨by decide, by decide⟩, ⟨"St. Ives", by decide +kernel⟩, fun s hs => ?_⟩
    obtain rfl : s = "// \"a\";b\r" := by simpa [Sample.rowEntry] using hs
    decide
  have hentries : ∀ e ∈ [Sample.rowEntry, Sample.rowEntry], e.Writable Sample.rowColumns := by
    simp [hentry]
  exact ⟨hdelimiter, hcolumns, hentries, readLexicon_writeLexicon hdelimiter hcolumns hentries⟩

end AnnotatedText
