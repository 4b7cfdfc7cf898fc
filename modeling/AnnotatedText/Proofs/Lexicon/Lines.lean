import AnnotatedText.Lexicon.Reading

/-!
# Lines of a lexicon

A lexicon is read line by line. No line holds a line feed, and lines that are written one after the
other, each with a line feed behind it, are the lines of what is written.

An entry is formed of fields (`Entry.FormedOf`): there is one for each part of the key and for each
column, the tokens are those of the parts of the key joined by blanks, and the attributes are the
values of the other fields. Reading a line gives the entry that is formed of the fields of its row,
and is a fault if there is none; but it is broken off if the number of its fields is what the sum of
the fields of the key and the columns wraps around to, `WrapsAround`. What a line gives depends on
nothing but the line and its number, so lines are read in turn, `readInTurn`, until the reading is
broken off.

## Main results

* `notMem_of_mem_lexiconLines`, `lexiconLines_flatMap`
* `readEntry_eq_some_ok_iff`, `readEntry_eq_none_iff`
* `readEntry_eq`: a line is parted behind the fields of the key, which breaks off if there are fewer.
* `readLines_append`: lines are read in turn.
-/

namespace AnnotatedText

/-! ### Cutting a text into lines -/

namespace Text

@[simp] theorem dropSuffix_append (c : Char) (cs : List Char) :
    dropSuffix c (cs ++ [c]) = some cs := by
  simp [dropSuffix]

/-- Nothing is dropped where the last character is another. -/
theorem dropSuffix_of_getLast?_ne {c : Char} {cs : List Char} (h : cs.getLast? ≠ some c) :
    dropSuffix c cs = none :=
  if_neg h

/-- What is left of a text was in it before. -/
theorem mem_of_mem_dropSuffix {c d : Char} {cs : List Char}
    (h : d ∈ (dropSuffix c cs).getD cs) : d ∈ cs := by
  rw [dropSuffix] at h
  split at h
  · exact (List.dropLast_sublist cs).subset h
  · exact h

/-- A line feed stands only at the end of a line. -/
theorem exists_of_mem_rawLines {cs line : List Char} (h : line ∈ rawLines cs) :
    ∃ body, '\n' ∉ body ∧ (line = body ∨ line = body ++ ['\n']) := by
  induction cs generalizing line with
  | nil => simp [rawLines] at h
  | cons c rest ih =>
      rw [rawLines] at h
      split at h
      · rcases List.mem_cons.mp h with rfl | h
        · exact ⟨[], List.not_mem_nil, .inr rfl⟩
        · exact ih h
      · rename_i hc
        have hbody {body : List Char} (hbody : '\n' ∉ body) : '\n' ∉ c :: body :=
          List.not_mem_cons_of_ne_of_not_mem (Ne.symm hc) hbody
        split at h
        · obtain rfl := List.mem_singleton.mp h
          exact ⟨[c], hbody List.not_mem_nil, .inl rfl⟩
        · rename_i first others hrest
          rcases List.mem_cons.mp h with rfl | h
          · obtain ⟨body, hfree, rfl | rfl⟩ := ih (hrest ▸ List.mem_cons_self)
            · exact ⟨c :: first, hbody hfree, .inl rfl⟩
            · exact ⟨c :: body, hbody hfree, .inr rfl⟩
          · exact ih (hrest ▸ List.mem_cons_of_mem _ h)

/-- A text without line feeds is the first line in front of one. -/
theorem rawLines_append_of_notMem {line : List Char} (h : '\n' ∉ line) (rest : List Char) :
    rawLines (line ++ '\n' :: rest) = (line ++ ['\n']) :: rawLines rest := by
  induction line with
  | nil => rw [List.nil_append, rawLines, if_pos rfl, List.nil_append]
  | cons c line ih =>
      obtain ⟨hc, hline⟩ := List.ne_and_not_mem_of_not_mem_cons h
      rw [List.cons_append, rawLines, if_neg (Ne.symm hc), ih hline, List.cons_append]

/-- A line is without its ending what was in front of the line feed. -/
theorem withoutEnding_append {line : List Char} (h : line.getLast? ≠ some '\r') :
    withoutEnding (line ++ ['\n']) = line := by
  rw [withoutEnding, dropSuffix_append]
  exact congrArg (Option.getD · line) (dropSuffix_of_getLast?_ne h)

end Text

/-- **No line of a lexicon holds a line feed.** -/
theorem notMem_of_mem_lexiconLines {text : String} {line : List Char}
    (h : line ∈ lexiconLines text) : '\n' ∉ line := by
  obtain ⟨ended, hended, rfl⟩ := List.mem_map.mp h
  obtain ⟨raw, hraw, rfl⟩ := List.mem_map.mp hended
  obtain ⟨body, hfree, rfl | rfl⟩ := Text.exists_of_mem_rawLines hraw
  · have hlast : raw.getLast? ≠ some '\n' := fun hlast => hfree (List.mem_of_getLast? hlast)
    rw [Text.withoutEnding, Text.dropSuffix_of_getLast?_ne hlast]
    exact fun hmem => hfree (Text.mem_of_mem_dropSuffix hmem)
  · rw [Text.withoutEnding, Text.dropSuffix_append]
    exact fun hmem => hfree (Text.mem_of_mem_dropSuffix (Text.mem_of_mem_dropSuffix hmem))

/-- **Lines that are written are read again**, if no carriage return is taken for a part of their
ending. -/
theorem lexiconLines_flatMap {lines : List (List Char)}
    (h : ∀ line ∈ lines, '\n' ∉ line ∧ line.getLast? ≠ some '\r') :
    lexiconLines (String.ofList (lines.flatMap (· ++ ['\n']))) = lines := by
  rw [lexiconLines, Text.lines, String.toList_ofList]
  induction lines with
  | nil => rfl
  | cons line lines ih =>
      obtain ⟨⟨hfree, hlast⟩, hlines⟩ := List.forall_mem_cons.mp h
      have hfirst : (Text.dropSuffix '\r' line).getD line = line :=
        congrArg (Option.getD · line) (Text.dropSuffix_of_getLast?_ne hlast)
      rw [List.flatMap_cons, List.append_assoc, List.singleton_append,
        Text.rawLines_append_of_notMem hfree, List.map_cons, List.map_cons, ih hlines,
        Text.withoutEnding_append hlast, hfirst]

/-! ### Entries that are formed of fields -/

/-- An entry is **formed of** fields of which the first `keyFields` are its key and the others the
literals of its columns. -/
structure Entry.FormedOf (keyFields : Nat) (columns : List Column) (fields : List String)
    (e : Entry) : Prop where
  count_eq : fields.length = keyFields + columns.length
  tokens_eq : e.tokens = tokenize (" ".intercalate (fields.take keyFields))
  has_tokens : e.tokens ≠ []
  attributes_eq : e.attributes.map some =
    List.zipWith (fun literal column => Scalar.read? literal column.kind)
      (fields.drop keyFields) columns

/-- Attributes are read if every literal is a value of its column, and then they are the values. -/
theorem readAttributes_eq_ok_iff {literals : List String} {columns : List Column}
    {values : List Scalar} :
    readAttributes literals columns = .ok values ↔
      values.map some = List.zipWith (fun literal column => Scalar.read? literal column.kind)
        literals columns := by
  induction literals generalizing columns values with
  | nil => cases values <;> simp [readAttributes]
  | cons literal literals ih =>
      cases columns with
      | nil => cases values <;> simp [readAttributes]
      | cons column columns =>
          rw [readAttributes, List.zipWith_cons_cons]
          cases hv : Scalar.read? literal column.kind with
          | none => cases values <;> simp
          | some v =>
              cases hrest : readAttributes literals columns with
              | error fault =>
                  -- what cannot be read behind the literal is no list of values
                  have hnone (rest : List Scalar) : rest.map some ≠ List.zipWith
                      (fun literal column => Scalar.read? literal column.kind) literals columns :=
                    fun heq => absurd (hrest.symm.trans (ih.mpr heq)) (by simp)
                  cases values with
                  | nil => simp [Except.map]
                  | cons value rest => simp [Except.map, hnone rest]
              | ok rest =>
                  rw [← ih.mp hrest]
                  cases values with
                  | nil => simp [Except.map]
                  | cons value values =>
                      simp [Except.map, List.map_inj_right, eq_comm]

/-- **A line gives the entry that is formed of its fields.** -/
theorem readEntry_eq_some_ok_iff {format : LexiconFormat} {columns : List Column}
    {line : List Char} {e : Entry} :
    readEntry format columns line = some (.ok e) ↔
      e.FormedOf format.keyFields columns (Row.fields format.delimiter (String.ofList line)) := by
  rw [readEntry]
  generalize Row.fields format.delimiter (String.ofList line) = fields
  by_cases hcount : fields.length = format.keyFields + columns.length
  · rw [if_neg (fun hne => hne hcount), entryOf]
    by_cases hkey : tokenize (" ".intercalate (fields.take format.keyFields)) = []
    · rw [if_pos hkey]
      exact iff_of_false (by simp) fun h => h.has_tokens (h.tokens_eq.trans hkey)
    · rw [if_neg hkey]
      constructor
      · intro h
        cases hvalues : readAttributes (fields.drop format.keyFields) columns with
        | error fault => rw [hvalues] at h; cases h
        | ok values =>
            rw [hvalues] at h
            obtain rfl := Except.ok.inj (Option.some.inj h)
            exact ⟨hcount, rfl, hkey, readAttributes_eq_ok_iff.mp hvalues⟩
      · rintro ⟨-, htokens, -, hattributes⟩
        rw [readAttributes_eq_ok_iff.mpr hattributes, ← htokens]
        rfl
  · rw [if_pos hcount]
    refine iff_of_false ?_ fun h => hcount h.count_eq
    split <;> simp

/-! ### Sums that wrap around -/

/-- The sum of the fields of the key and of the columns **wraps around** to a number. -/
structure WrapsAround (format : LexiconFormat) (columns : List Column) (count : Nat) : Prop where
  count_eq : count = expectedFields format columns
  count_ne : count ≠ format.keyFields + columns.length

/-- **The reading of a line is broken off** exactly if the sum wraps around to the number of its
fields. -/
theorem readEntry_eq_none_iff {format : LexiconFormat} {columns : List Column} {line : List Char} :
    readEntry format columns line = none ↔
      WrapsAround format columns (Row.fields format.delimiter (String.ofList line)).length := by
  rw [readEntry]
  generalize Row.fields format.delimiter (String.ofList line) = fields
  by_cases hcount : fields.length = format.keyFields + columns.length
  · rw [if_neg (fun hne => hne hcount)]
    exact iff_of_false (by simp) fun h => h.count_ne hcount
  · rw [if_pos hcount]
    by_cases hwrapped : fields.length = expectedFields format columns
    · rw [if_pos hwrapped]
      exact iff_of_true rfl ⟨hwrapped, hcount⟩
    · rw [if_neg hwrapped]
      exact iff_of_false (by simp) fun h => hwrapped h.count_eq

section

variable {format : LexiconFormat} {columns : List Column} {count : Nat}

/-- The number of expected fields is a sum of words, which wraps around. -/
theorem expectedFields_eq_mod (format : LexiconFormat) (columns : List Column) :
    expectedFields format columns = (format.keyFields + columns.length) % UInt64.size := by
  simp [expectedFields]

/-- A sum that is a word itself does not wrap around. -/
theorem not_wrapsAround (h : format.keyFields + columns.length < UInt64.size) :
    ¬ WrapsAround format columns count := by
  intro hwraps
  have hcount := hwraps.count_eq
  rw [expectedFields_eq_mod, Nat.mod_eq_of_lt h] at hcount
  exact hwraps.count_ne hcount

/-- **A line is cut behind more fields than it has** exactly if its number of fields is expected only
because the sum has wrapped around. There are never more columns than words. -/
theorem wrapsAround_iff_lt (h : columns.length < UInt64.size) :
    WrapsAround format columns count ↔
      count = expectedFields format columns ∧ count < format.keyFields := by
  have hmod := expectedFields_eq_mod format columns
  have hsize : UInt64.size = 18446744073709551616 := rfl
  rw [hsize] at h hmod
  constructor
  · rintro ⟨hcount, hne⟩
    exact ⟨hcount, by omega⟩
  · rintro ⟨hcount, hlt⟩
    exact ⟨hcount, by omega⟩

/-- **How a line is read**: its fields are counted, and if they are as many as expected they are
parted behind those of the key, which is not possible if they are fewer. A line never has more fields
than a word counts, and a list never more columns. -/
theorem readEntry_eq {line : List Char} {fields : List String}
    (hfields : Row.fields format.delimiter (String.ofList line) = fields)
    (hlength : fields.length < UInt64.size) (hcolumns : columns.length < UInt64.size) :
    readEntry format columns line =
      if fields.length ≠ expectedFields format columns then
        some (.error (.fieldCount (expectedFields format columns) fields.length))
      else if fields.length < format.keyFields then none
      else some (entryOf format.keyFields columns fields) := by
  rw [readEntry, hfields]
  by_cases hcount : fields.length = format.keyFields + columns.length
  · have hexpected : expectedFields format columns = fields.length := by
      rw [expectedFields_eq_mod, ← hcount, Nat.mod_eq_of_lt hlength]
    simp only [hexpected, hcount, ne_eq, not_true, if_false]
    rw [if_neg (by omega)]
  · rw [if_pos hcount]
    by_cases hwrapped : fields.length = expectedFields format columns
    · obtain ⟨-, hlt⟩ := (wrapsAround_iff_lt hcolumns).mp ⟨hwrapped, hcount⟩
      simp only [hwrapped, ne_eq, not_true, if_false, if_true]
      rw [if_pos (hwrapped ▸ hlt)]
    · rw [if_neg hwrapped, if_pos hwrapped]

end

/-! ### Reading lines one after the other -/

/-- What is read **in turn**: nothing more, once the reading is broken off. -/
def readInTurn : Except (List Diagnostic) Harvest → Except (List Diagnostic) Harvest →
    Except (List Diagnostic) Harvest
  | .error ds, _ => .error ds
  | .ok first, .error ds => .error (first.diagnostics ++ ds)
  | .ok first, .ok second =>
    .ok ⟨first.entries ++ second.entries, first.diagnostics ++ second.diagnostics⟩

@[simp] theorem readInTurn_nothing (r : Except (List Diagnostic) Harvest) :
    readInTurn (.ok ⟨[], []⟩) r = r := by
  cases r <;> rfl

/-- Readings in turn may be taken together in either way. -/
theorem readInTurn_assoc (r s t : Except (List Diagnostic) Harvest) :
    readInTurn (readInTurn r s) t = readInTurn r (readInTurn s t) := by
  cases r <;> cases s <;> cases t <;> simp [readInTurn]

/-- What one line with a number gives: nothing if it is passed over, else an entry or a diagnostic
with the number, unless the reading is broken off. -/
def readLine (list : SourceList) (format : LexiconFormat) (number : Nat) (line : List Char) :
    Except (List Diagnostic) Harvest :=
  if isPassedOver line then .ok ⟨[], []⟩
  else match readEntry format list.columns line with
    | none => .error []
    | some (.ok e) => .ok ⟨[e], []⟩
    | some (.error fault) => .ok ⟨[], [⟨list.name, number, fault⟩]⟩

variable (list : SourceList) (format : LexiconFormat) (number : Nat)

@[simp] theorem readLines_nil : readLines list format number [] = .ok ⟨[], []⟩ := rfl

/-- **A line is read in front of the lines behind it.** -/
theorem readLines_cons (line : List Char) (rest : List (List Char)) :
    readLines list format number (line :: rest) =
      readInTurn (readLine list format number line) (readLines list format (number + 1) rest) := by
  simp only [readLines, readLine, readLinesFrom]
  cases isPassedOver line with
  | true => simp
  | false =>
      cases hread : readEntry format list.columns line with
      | none => rfl
      | some outcome =>
          cases (readLinesFrom format list.columns (number + 1) rest).brokenOff <;>
            cases outcome <;> simp [harvest, readInTurn]

/-- **Lines are read in turn**, and those behind are numbered on from those before. -/
theorem readLines_append (before behind : List (List Char)) :
    readLines list format number (before ++ behind) =
      readInTurn (readLines list format number before)
        (readLines list format (number + before.length) behind) := by
  induction before generalizing number with
  | nil => simp
  | cons line rest ih =>
      rw [List.cons_append, readLines_cons, readLines_cons, ih, readInTurn_assoc, List.length_cons,
        Nat.add_right_comm number, Nat.add_assoc number]

end AnnotatedText
