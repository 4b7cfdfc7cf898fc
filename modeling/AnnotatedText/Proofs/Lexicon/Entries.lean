import AnnotatedText.Lexicon.Reading

/-!
# Entries that are kept

Whatever becomes an entry of a list, read from a line or given as such, has a token and fits the
columns of the list. What does not is left out with a diagnostic.

## Main results

* `proper_of_readLexicon`, `proper_of_checkEntries`
-/

namespace AnnotatedText

/-- An entry is **proper** for columns: it has a key, and an attribute for each column, of the
column's kind. -/
structure Entry.Proper (columns : List Column) (e : Entry) : Prop where
  has_tokens : e.tokens ≠ []
  fits : fitsColumns e.attributes columns = true

/-- Attributes that are read fit the columns, if there is a literal for each of them. -/
theorem fitsColumns_of_readAttributes {literals : List String} {columns : List Column}
    {values : List Scalar} (hlen : literals.length = columns.length)
    (h : readAttributes literals columns = .ok values) : fitsColumns values columns = true := by
  induction literals generalizing columns values with
  | nil =>
      obtain rfl : columns = [] := List.length_eq_zero_iff.mp hlen.symm
      obtain rfl : [] = values := by simpa [readAttributes] using h
      rfl
  | cons literal literals ih =>
      cases columns with
      | nil => simp at hlen
      | cons column columns =>
          cases hv : Scalar.read? literal column.kind with
          | none => simp [readAttributes, hv] at h
          | some v =>
              cases hrest : readAttributes literals columns with
              | error fault => simp [readAttributes, hv, hrest, Except.map] at h
              | ok rest =>
                  obtain rfl : v :: rest = values := by
                    simpa [readAttributes, hv, hrest, Except.map] using h
                  have := ih (Nat.succ.inj hlen) hrest
                  simp_all [fitsColumns, Scalar.kind_of_read? hv]

/-- An entry that is read from a line is proper. -/
theorem proper_of_readEntry {format : LexiconFormat} {columns : List Column} {line : List Char}
    {e : Entry} (h : readEntry format columns line = some (.ok e)) : e.Proper columns := by
  simp only [readEntry] at h
  split at h
  · split at h <;> cases h
  · rename_i hcount
    rw [entryOf] at h
    split at h
    · cases h
    · rename_i hkey
      cases hvalues : readAttributes
          ((Row.fields format.delimiter (String.ofList line)).drop format.keyFields) columns with
      | error fault => simp [hvalues, Except.map] at h
      | ok values =>
          rw [hvalues] at h
          obtain rfl := Except.ok.inj (Option.some.inj h)
          refine ⟨hkey, fitsColumns_of_readAttributes ?_ hvalues⟩
          rw [List.length_drop]
          omega

/-- The entries that are kept are what was found to be one. -/
theorem mem_entries_harvest {source : String} {found : List (Nat × Except EntryFault Entry)}
    {e : Entry} : e ∈ (harvest source found).entries ↔ ∃ line, (line, .ok e) ∈ found := by
  induction found with
  | nil => simp [harvest]
  | cons f rest ih =>
      obtain ⟨line, fault | entry⟩ := f
      · simp [harvest, ih]
      · simp [harvest, ih, exists_or, eq_comm]

/-- What is found in a line is what is read of it. -/
theorem readEntry_of_mem_readLinesFrom {format : LexiconFormat} {columns : List Column}
    {number line : Nat} {lines : List (List Char)} {outcome : Except EntryFault Entry}
    (h : (line, outcome) ∈ (readLinesFrom format columns number lines).found) :
    ∃ l, readEntry format columns l = some outcome := by
  induction lines generalizing number with
  | nil => simp [readLinesFrom] at h
  | cons l rest ih =>
      simp only [readLinesFrom] at h
      split at h
      · exact ih h
      · split at h
        · cases h
        · rename_i hread
          rcases List.mem_cons.mp h with heq | h
          · exact ⟨l, (Prod.mk.inj heq).2 ▸ hread⟩
          · exact ih h

/-- **Every entry of a lexicon is proper.** -/
theorem proper_of_readLexicon {list : SourceList} {format : LexiconFormat} {text : String}
    {found : Harvest} (hread : readLexicon list format text = .ok found) {e : Entry}
    (h : e ∈ found.entries) : e.Proper list.columns := by
  simp only [readLexicon, readLines] at hread
  split at hread
  · cases hread
  · obtain rfl := Except.ok.inj hread
    obtain ⟨line, hmem⟩ := mem_entries_harvest.mp h
    obtain ⟨l, hl⟩ := readEntry_of_mem_readLinesFrom hmem
    exact proper_of_readEntry hl

/-- What of the given entries is kept is proper. -/
theorem proper_of_mem_checkEntriesFrom {columns : List Column} {number line : Nat}
    {entries : List Entry} {e : Entry} (h : (line, .ok e) ∈ checkEntriesFrom columns number entries) :
    e.Proper columns := by
  induction entries generalizing number with
  | nil => simp [checkEntriesFrom] at h
  | cons entry rest ih =>
      rcases List.mem_cons.mp h with heq | h
      · have hentry := (Prod.mk.inj heq).2
        split at hentry
        · rename_i hproper
          obtain rfl := Except.ok.inj hentry
          exact ⟨hproper.1, hproper.2⟩
        · cases hentry
      · exact ih h

/-- **Every given entry that is kept is proper.** -/
theorem proper_of_checkEntries {list : SourceList} {entries : List Entry} {e : Entry}
    (h : e ∈ (checkEntries list entries).entries) : e.Proper list.columns := by
  obtain ⟨line, hmem⟩ := mem_entries_harvest.mp h
  exact proper_of_mem_checkEntriesFrom hmem

end AnnotatedText
