import AnnotatedText.Command.Inspect
import AnnotatedText.Proofs.Text.Parts

/-!
# The written form of a list specification

A specification has a form in which it is written, `ListSpec.display`: its path, an equals sign, its
type and, in parentheses, its columns. Behind the path it is what the inspect command prints of a
list. Whether a specification is read back from this form depends on what its names hold and nothing
else. The path may hold anything, equals signs and parentheses included, as the last equals sign
ends it; so the type and the columns must be free of equals signs, and of the marks that end them.

What is read from any text can be written, so every text that is accepted has a written form, which
is read to the same.

## Main results

* `ListSpec.read_display`, `ListSpec.isWritable_of_read`
* `ListSpec.read_canonical`: both, with the form in which the inspect command prints a list.
-/

namespace AnnotatedText

/-! ### The names of kinds -/

namespace Kind

/-- Names of kinds are made of letters. -/
theorem isAlpha_of_mem_name (k : Kind) {c : Char} (h : c ∈ k.name.toList) : c.isAlpha = true := by
  have hall : k.name.toList.all Char.isAlpha = true := by cases k <;> decide
  exact List.all_eq_true.mp hall c h

/-- **A kind is known by its name.** -/
theorem ofName?_name (k : Kind) : ofName? k.name = some k := by
  cases k <;> decide

/-- There are no blanks around it. -/
theorem trim_name (k : Kind) : Text.trim k.name.toList = k.name.toList := by
  cases k <;> decide

end Kind

namespace ListSpec

/-! ### The written form -/

/-- A column as it is written: its name, a colon and its kind. -/
def columnText (c : Column) : List Char := c.name.toList ++ ':' :: c.kind.name.toList

/-- A type as it is written, with its columns. -/
def targetText (typeName : String) (columns : List Column) : String :=
  typeName ++ "(" ++ columnsText columns ++ ")"

/-- The specification **as it is written**. -/
def display (s : ListSpec) : String := s.path ++ "=" ++ targetText s.typeName s.columns

/-- The columns are written one behind the other with commas between them. -/
theorem toList_columnsText (columns : List Column) :
    (columnsText columns).toList = [','].intercalate (columns.map columnText) := by
  have hcolumn (c : Column) : (c.name ++ ":" ++ c.kind.name).toList = columnText c := by
    simp [columnText]
  simp [columnsText, String.toList_intercalate, Function.comp_def, hcolumn]

/-- The target is the type with the columns in parentheses behind it. -/
theorem toList_targetText (typeName : String) (columns : List Column) :
    (targetText typeName columns).toList =
      typeName.toList ++ '(' :: ((columnsText columns).toList ++ [')']) := by
  simp [targetText]

/-- A specification is displayed as its path, a sign of equality and the target. -/
theorem toList_display (s : ListSpec) :
    s.display.toList = s.path.toList ++ '=' :: (targetText s.typeName s.columns).toList := by
  simp [display]

/-! ### What can be written -/

/-- The name of a column **can be written** if it has no blanks around it and none of the marks that
stand between columns, in a column or behind the path. -/
structure IsColumnName (name : List Char) : Prop where
  trimmed : Text.IsTrimmed name
  comma : ',' ∉ name
  colon : ':' ∉ name
  equals : '=' ∉ name

/-- A specification **can be written** if it has a path, a type without blanks around it and without
the marks that end the path and the type, and columns of which the names can be written. -/
structure IsWritable (s : ListSpec) : Prop where
  path_ne : s.path ≠ ""
  type_ne : s.typeName ≠ ""
  trimmed : Text.IsTrimmed s.typeName.toList
  equals : '=' ∉ s.typeName.toList
  parenthesis : '(' ∉ s.typeName.toList
  columns : ∀ c ∈ s.columns, IsColumnName c.name.toList

/-! ### Reading what is written -/

/-- A column whose name may be written contains neither a comma nor a sign of equality. -/
theorem IsColumnName.notMem_columnText {c : Column} (h : IsColumnName c.name.toList) {d : Char}
    (hd : d = ',' ∨ d = '=') : d ∉ columnText c := by
  intro hmem
  have hname : d ∉ c.name.toList := by
    rcases hd with rfl | rfl
    · exact h.comma
    · exact h.equals
  obtain hmem | hmem := List.mem_append.mp hmem
  · exact hname hmem
  · obtain rfl | hmem := List.mem_cons.mp hmem
    · exact absurd hd (by decide)
    · have hletter := c.kind.isAlpha_of_mem_name hmem
      rcases hd with rfl | rfl <;> exact absurd hletter (by decide)

/-- A written column is read back. -/
theorem readColumn_columnText {c : Column} (h : IsColumnName c.name.toList) :
    readColumn (columnText c) = .ok c := by
  rw [readColumn, columnText, Text.splitFirst_append_of_notMem h.colon]
  simp only [c.kind.trim_name, String.ofList_toList, c.kind.ofName?_name, h.trimmed.trim_eq]

/-- So are written columns, none of which is blank. -/
theorem readColumns_map_columnText {columns : List Column}
    (h : ∀ c ∈ columns, IsColumnName c.name.toList) :
    readColumns (columns.map columnText) = .ok columns := by
  induction columns with
  | nil => rfl
  | cons c rest ih =>
      obtain ⟨hc, hrest⟩ := List.forall_mem_cons.mp h
      have hblank : ¬ Text.allBlank (columnText c) = true := by
        have hcolon : ':' ∈ columnText c := List.mem_append_right _ List.mem_cons_self
        exact fun hall => absurd (List.all_eq_true.mp hall ':' hcolon) (by decide)
      rw [List.map_cons, readColumns, if_neg hblank, readColumn_columnText hc]
      simp only [ih hrest]
      rfl

/-- The columns are cut apart as they were put together; if there are none, one blank part is left,
which does not count. -/
theorem readColumns_splitAll_columnsText {columns : List Column}
    (h : ∀ c ∈ columns, IsColumnName c.name.toList) :
    readColumns (Text.splitAll ',' (columnsText columns).toList) = .ok columns := by
  rw [toList_columnsText]
  by_cases hne : columns = []
  · rw [hne]
    rfl
  · have hparts : ∀ part ∈ columns.map columnText, ',' ∉ part :=
      List.forall_mem_map.mpr fun c hc => (h c hc).notMem_columnText (.inl rfl)
    rw [Text.splitAll_intercalate (fun hnil => hne (List.map_eq_nil_iff.mp hnil)) hparts,
      readColumns_map_columnText h]

/-- Columns whose names may be written contain no sign of equality. -/
theorem equals_notMem_columnsText {columns : List Column}
    (h : ∀ c ∈ columns, IsColumnName c.name.toList) : '=' ∉ (columnsText columns).toList := by
  intro hmem
  rw [toList_columnsText] at hmem
  obtain hcomma | ⟨part, hpart, hmem⟩ := Text.mem_intercalate hmem
  · exact absurd hcomma (by decide)
  · obtain ⟨c, hc, rfl⟩ := List.mem_map.mp hpart
    exact (h c hc).notMem_columnText (.inr rfl) hmem

namespace IsWritable

variable {s : ListSpec}

/-- What stands behind the sign of equality that ends the path contains no other. -/
theorem equals_notMem_targetText (h : s.IsWritable) :
    '=' ∉ (targetText s.typeName s.columns).toList := by
  rw [toList_targetText]
  simp [h.equals, equals_notMem_columnsText h.columns]

/-- The type and the columns are read back. -/
theorem readTarget_targetText (h : s.IsWritable) (spec : String) :
    readTarget spec (targetText s.typeName s.columns).toList =
      .ok (s.typeName.toList, s.columns) := by
  rw [readTarget, toList_targetText, Text.splitFirst_append_of_notMem h.parenthesis]
  simp [readColumns_splitAll_columnsText h.columns, Except.map]

/-- A text is read to the specification if it has its path in front of the last equals sign and its
type and columns are read from what stands behind it. -/
theorem read_of_readTarget (h : s.IsWritable) {text : String} {target : List Char}
    (htext : text.toList = s.path.toList ++ '=' :: target) (hequals : '=' ∉ target)
    (htarget : readTarget text target = .ok (s.typeName.toList, s.columns)) :
    read text = .ok s := by
  have hpath : s.path.toList ≠ [] := fun hnil => h.path_ne (String.toList_eq_nil_iff.mp hnil)
  have htype : s.typeName.toList ≠ [] := fun hnil => h.type_ne (String.toList_eq_nil_iff.mp hnil)
  rw [read, htext, Text.splitLast_append_of_notMem hequals]
  simp only [if_neg hpath, htarget, h.trimmed.trim_eq, if_neg htype, String.ofList_toList]

/-- **A specification that can be written is read back.** -/
theorem read_display (h : s.IsWritable) : read s.display = .ok s :=
  h.read_of_readTarget s.toList_display h.equals_notMem_targetText (h.readTarget_targetText _)

/-- Without columns it is also read from a text without parentheses. -/
theorem read_without_columns (h : s.IsWritable) (hcolumns : s.columns = []) :
    read (s.path ++ "=" ++ s.typeName) = .ok s := by
  have htext : (s.path ++ "=" ++ s.typeName).toList =
      s.path.toList ++ '=' :: s.typeName.toList := by
    simp
  refine h.read_of_readTarget htext h.equals ?_
  rw [readTarget, Text.splitFirst_of_notMem h.parenthesis, hcolumns]

end IsWritable

/-! ### What is read can be written -/

/-- The name of a column that is read. -/
theorem isColumnName_of_readColumn {cs : List Char} {c : Column} (h : readColumn cs = .ok c)
    (hcomma : ',' ∉ cs) (hequals : '=' ∉ cs) : IsColumnName c.name.toList := by
  rw [readColumn] at h
  split at h
  · exact nomatch h
  · rename_i name kind hsplit
    obtain ⟨rfl, hcolon⟩ := Text.splitFirst_eq_some hsplit
    split at h
    · exact nomatch h
    · obtain rfl := Except.ok.inj h
      have hname {d : Char} (hd : d ∉ name ++ ':' :: kind) : d ∉ Text.trim name :=
        fun hmem => hd (List.mem_append_left _ (Text.mem_of_mem_trim hmem))
      rw [String.toList_ofList]
      exact ⟨Text.isTrimmed_trim name, hname hcomma,
        fun hmem => hcolon (Text.mem_of_mem_trim hmem), hname hequals⟩

/-- Columns that are read have names that may be written, as they are read from parts without commas
and signs of equality. -/
theorem isColumnName_of_readColumns {parts : List (List Char)} {columns : List Column}
    (h : readColumns parts = .ok columns) (hparts : ∀ part ∈ parts, ',' ∉ part ∧ '=' ∉ part) :
    ∀ c ∈ columns, IsColumnName c.name.toList := by
  induction parts generalizing columns with
  | nil =>
      obtain rfl := Except.ok.inj h
      exact List.forall_mem_nil _
  | cons cs rest ih =>
      obtain ⟨⟨hcomma, hequals⟩, hrest⟩ := List.forall_mem_cons.mp hparts
      rw [readColumns] at h
      split at h
      · exact ih h hrest
      · split at h
        · exact nomatch h
        · rename_i c hc
          cases hread : readColumns rest with
          | error e => exact nomatch hread ▸ h
          | ok others =>
              rw [hread] at h
              obtain rfl := Except.ok.inj h
              exact List.forall_mem_cons.mpr
                ⟨isColumnName_of_readColumn hc hcomma hequals, ih hread hrest⟩

/-- The type and the columns that are read. -/
theorem names_of_readTarget {spec : String} {target typeName : List Char} {columns : List Column}
    (h : readTarget spec target = .ok (typeName, columns)) (hequals : '=' ∉ target) :
    '=' ∉ typeName ∧ '(' ∉ typeName ∧ ∀ c ∈ columns, IsColumnName c.name.toList := by
  rw [readTarget] at h
  split at h
  · rename_i hsplit
    obtain ⟨rfl, rfl⟩ := Prod.mk.inj (Except.ok.inj h)
    exact ⟨hequals, Text.notMem_of_splitFirst hsplit, List.forall_mem_nil _⟩
  · rename_i before rest hsplit
    obtain ⟨rfl, hparenthesis⟩ := Text.splitFirst_eq_some hsplit
    split at h
    · cases hread : readColumns (Text.splitAll ',' rest.dropLast) with
      | error e => exact nomatch hread ▸ h
      | ok read =>
          rw [hread] at h
          obtain ⟨rfl, rfl⟩ := Prod.mk.inj (Except.ok.inj h)
          refine ⟨fun hmem => hequals (List.mem_append_left _ hmem), hparenthesis,
            isColumnName_of_readColumns hread fun part hpart => ⟨Text.notMem_of_mem_splitAll hpart,
              fun hmem => hequals ?_⟩⟩
          have hrest := (List.dropLast_prefix rest).mem (Text.mem_of_mem_splitAll hpart hmem)
          exact List.mem_append_right _ (List.mem_cons_of_mem _ hrest)
    · exact nomatch h

/-- **What is read can be written.** -/
theorem isWritable_of_read {text : String} {s : ListSpec} (h : read text = .ok s) :
    s.IsWritable := by
  rw [read] at h
  split at h
  · exact nomatch h
  · rename_i path target hsplit
    obtain ⟨-, hequals⟩ := Text.splitLast_eq_some hsplit
    split at h
    · exact nomatch h
    · rename_i hpath
      split at h
      · exact nomatch h
      · rename_i typeName columns htarget
        obtain ⟨htype, hparenthesis, hcolumns⟩ := names_of_readTarget htarget hequals
        simp only at h
        split at h
        · exact nomatch h
        · rename_i hname
          obtain rfl := Except.ok.inj h
          have htrim {d : Char} (hd : d ∉ typeName) :
              d ∉ (String.ofList (Text.trim typeName)).toList := by
            rw [String.toList_ofList]
            exact fun hmem => hd (Text.mem_of_mem_trim hmem)
          refine ⟨?_, ?_, ?_, htrim htype, htrim hparenthesis, hcolumns⟩
          · exact fun hnil => hpath (String.ofList_eq_empty_iff.mp hnil)
          · exact fun hnil => hname (String.ofList_eq_empty_iff.mp hnil)
          · rw [String.toList_ofList]
            exact Text.isTrimmed_trim typeName

/-- **Every specification that can be written is read back from its written form**, and from its
path and its type alone if it has no columns. Every specification that is read from some text can be
written, so reading and writing it again changes nothing. Behind the name of a list, the inspect
command prints its type and its columns as they are written. -/
theorem read_canonical :
    (∀ s : ListSpec, s.IsWritable → read s.display = .ok s ∧
      (s.columns = [] → read (s.path ++ "=" ++ s.typeName) = .ok s)) ∧
    (∀ text s, read text = .ok s → s.IsWritable ∧ read s.display = .ok s) ∧
    ∀ (place : Nat) (l : SourceList), Inspect.listLine place l =
      "  [" ++ toString place ++ "] " ++ l.name ++ " -> " ++ targetText l.typeName l.columns := by
  refine ⟨fun s hs => ⟨hs.read_display, hs.read_without_columns⟩, fun text s hread => ?_,
    fun place l => ?_⟩
  · have hs := isWritable_of_read hread
    exact ⟨hs, hs.read_display⟩
  · simp only [Inspect.listLine, targetText, String.append_assoc]

end ListSpec

/-- A path with the marks in it that elsewhere end a path and a type, and columns of which one has
no name. -/
def Sample.markedPath : ListSpec :=
  ⟨"v=2(new)/terms.txt", "Term)", [⟨"code", .integer⟩, ⟨"", .string⟩]⟩

/-- It is read from a text with blanks and a qualified kind in it, and from its written form. -/
theorem ListSpec.read_canonical_markedPath :
    read "v=2(new)/terms.txt= Term) ( code : uima.cas.int,, :STRING )" = .ok Sample.markedPath ∧
    Sample.markedPath.display = "v=2(new)/terms.txt=Term)(code:Integer,:String)" ∧
    Sample.markedPath.IsWritable ∧ read Sample.markedPath.display = .ok Sample.markedPath := by
  have hread : read "v=2(new)/terms.txt= Term) ( code : uima.cas.int,, :STRING )" =
      .ok Sample.markedPath := by
    decide +kernel
  exact ⟨hread, by decide +kernel, read_canonical.2.1 _ _ hread⟩

end AnnotatedText
