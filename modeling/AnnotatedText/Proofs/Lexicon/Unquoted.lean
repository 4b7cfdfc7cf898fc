import AnnotatedText.Proofs.Lexicon.Lines
import AnnotatedText.Proofs.Row.Fields
import AnnotatedText.Proofs.Sentence.Joined
import Mathlib.Data.List.TakeWhile

/-!
# Lines without quotes

The fields of a line without quotes are its parts between the delimiters, but only of that much of
the line as belongs to its first record: a carriage return inside a line ends the record, and what
stands behind it is neither read nor reported. So a line is read as its first record says, and a
line of which no entry is formed can still be read as one (`carriage_return_hides_field`).

## Main results

* `formedOf_fields_iff`: the entry is formed of the parts of the first record.
* `readLexicon_of_unquoted`: what a line without quotes adds to what is read.
-/

namespace AnnotatedText

/-! ### The first record of a line -/

/-- The text of a row up to the end of its first record: the carriage returns it begins with and
what follows them up to the next one. -/
def firstRecord (row : List Char) : List Char :=
  row.takeWhile (· = '\r') ++ (row.dropWhile (· = '\r')).takeWhile (· ≠ '\r')

/-- A row is made up of the carriage returns it begins with, the record behind them, and what the
next carriage return cuts off. -/
theorem exists_firstRecord {row : List Char} (h : ∃ c ∈ row, c ≠ '\r') :
    ∃ front record back, row = front ++ record ++ back ∧ firstRecord row = front ++ record ∧
      (∀ c ∈ front, c = '\r') ∧ record ≠ [] ∧ '\r' ∉ record ∧ ∀ c ∈ back.head?, c = '\r' := by
  have hhead := List.head?_dropWhile_not (· = '\r') row
  have hback := List.head?_dropWhile_not (· ≠ '\r') (row.dropWhile (· = '\r'))
  refine ⟨row.takeWhile (· = '\r'), (row.dropWhile (· = '\r')).takeWhile (· ≠ '\r'),
    (row.dropWhile (· = '\r')).dropWhile (· ≠ '\r'), ?_, rfl, ?_, ?_, ?_, ?_⟩
  · rw [List.append_assoc, List.takeWhile_append_dropWhile, List.takeWhile_append_dropWhile]
  · exact fun c hc => by simpa using List.mem_takeWhile_imp hc
  · obtain ⟨c, hc, hne⟩ := h
    cases hrest : row.dropWhile (· = '\r') with
    | nil => exact absurd (List.dropWhile_eq_nil_iff.mp hrest c hc) (by simpa using hne)
    | cons first rest =>
        rw [hrest] at hhead
        have hfirst : first ≠ '\r' := by simpa using hhead
        simp [hfirst]
  · exact fun hmem => by simpa using List.mem_takeWhile_imp hmem
  · intro c hc
    rw [hc] at hback
    simpa using hback

/-- A line that is not passed over holds more than carriage returns. -/
theorem exists_ne_of_isPassedOver {line : List Char} (h : isPassedOver line = false) :
    ∃ c ∈ line, c ≠ '\r' := by
  have hblank : Text.allBlank line = false := (Bool.or_eq_false_iff.mp h).1
  obtain ⟨c, hc, hne⟩ := List.all_eq_false.mp hblank
  refine ⟨c, hc, ?_⟩
  rintro rfl
  exact hne (by decide)

/-- What is cut off a line begins with a carriage return, so a line without any is whole. -/
theorem exists_append_firstRecord {line : List Char} (h : isPassedOver line = false) :
    ∃ back, line = firstRecord line ++ back ∧ (∀ c ∈ back.head?, c = '\r') ∧
      ('\r' ∉ line → back = []) := by
  obtain ⟨front, record, back, hline, hfirst, -, -, -, hback⟩ :=
    exists_firstRecord (exists_ne_of_isPassedOver h)
  refine ⟨back, hfirst.symm ▸ hline, hback, fun hfree => ?_⟩
  cases back with
  | nil => rfl
  | cons c back =>
      obtain rfl := hback c rfl
      exact absurd (hline ▸ List.mem_append_right _ List.mem_cons_self) hfree

/-- The parts of a text between the delimiters. -/
def parts (delimiter : UInt8) (cs : List Char) : List String :=
  (Text.splitAll (Row.mark delimiter) cs).map String.ofList

/-- Blanks in front of the first field make no difference to the entry: they are no part of its key,
and where the first field is no part of the key there is no key at all. -/
theorem Entry.formedOf_append_of_blank {front cs : List Char}
    (h : ∀ c ∈ front, CharClass.of c = .blank) (others : List String) {keyFields : Nat}
    {columns : List Column} {e : Entry} :
    e.FormedOf keyFields columns (String.ofList (front ++ cs) :: others) ↔
      e.FormedOf keyFields columns (String.ofList cs :: others) := by
  cases keyFields with
  | zero =>
      have hnone (fields : List String) : ¬ e.FormedOf 0 columns fields := fun hformed =>
        hformed.has_tokens hformed.tokens_eq
      exact iff_of_false (hnone _) (hnone _)
  | succ keyFields =>
      have hjoined (first : List Char) : ∃ behind : List Char, ∀ front : List Char,
          " ".intercalate (String.ofList (front ++ first) :: others.take keyFields) =
            String.ofList (front ++ behind) := by
        cases hothers : others.take keyFields with
        | nil => exact ⟨first, fun front => String.intercalate_singleton⟩
        | cons next rest =>
            refine ⟨first ++ ' ' :: (" ".intercalate (next :: rest)).toList, fun front => ?_⟩
            rw [String.intercalate_cons_cons, ← String.toList_inj]
            simp
      obtain ⟨behind, hbehind⟩ := hjoined cs
      have htokens : tokenize (" ".intercalate
          ((String.ofList (front ++ cs) :: others).take (keyFields + 1))) =
            tokenize (" ".intercalate ((String.ofList cs :: others).take (keyFields + 1))) := by
        have hbare := hbehind []
        rw [List.nil_append, List.nil_append] at hbare
        rw [List.take_succ_cons, List.take_succ_cons, hbehind front, hbare]
        exact tokenize_append_of_blank h behind
      constructor
      · rintro ⟨hcount, hkey, hne, hattributes⟩
        exact ⟨hcount, hkey.trans htokens, hne, hattributes⟩
      · rintro ⟨hcount, hkey, hne, hattributes⟩
        exact ⟨hcount, hkey.trans htokens.symm, hne, hattributes⟩

/-- The fields of a line without quotes are the parts of its first record, but for the carriage
returns in front of the first one. -/
theorem exists_fields_of_unquoted {delimiter : UInt8} (h : Row.Separates delimiter)
    {line : List Char} (hkept : isPassedOver line = false) (hquote : '"' ∉ line)
    (hlf : '\n' ∉ line) (hmark : line.head? ≠ some '\ufeff') :
    ∃ front first others, (∀ c ∈ front, CharClass.of c = .blank) ∧
      Row.fields delimiter (String.ofList line) = String.ofList first :: others ∧
      parts delimiter (firstRecord line) = String.ofList (front ++ first) :: others := by
  obtain ⟨front, record, back, rfl, hfirst, hfront, hne, hcr, hback⟩ :=
    exists_firstRecord (exists_ne_of_isPassedOver hkept)
  have hrecord : ∀ c, c ∉ front ++ record ++ back → c ∉ record := fun c hc hmem =>
    hc (List.mem_append_left _ (List.mem_append_right _ hmem))
  have hfree : Row.mark delimiter ∉ front := fun hmem => h.mark_ne.1 (hfront _ hmem)
  have hblank : ∀ c ∈ front, CharClass.of c = .blank := by
    intro c hc
    rw [hfront c hc]
    decide
  obtain ⟨part, others, hparts, hwhole⟩ := Text.splitAll_append_of_notMem hfree record
  refine ⟨front, part, others.map String.ofList, hblank, ?_, ?_⟩
  · rw [Row.fields_of_unquoted h hmark (hrecord _ hquote) (hrecord _ hlf) hfront hne hcr hback,
      hparts, List.map_cons]
  · rw [hfirst, parts, hwhole, List.map_cons]

section

variable {delimiter : UInt8} {line : List Char}

/-- **The entry of a line without quotes is formed of the parts of its first record.** -/
theorem formedOf_fields_iff (h : Row.Separates delimiter) (hkept : isPassedOver line = false)
    (hquote : '"' ∉ line) (hlf : '\n' ∉ line) (hmark : line.head? ≠ some '\ufeff')
    {keyFields : Nat} {columns : List Column} {e : Entry} :
    e.FormedOf keyFields columns (Row.fields delimiter (String.ofList line)) ↔
      e.FormedOf keyFields columns (parts delimiter (firstRecord line)) := by
  obtain ⟨front, first, others, hblank, hfields, hparts⟩ :=
    exists_fields_of_unquoted h hkept hquote hlf hmark
  rw [hfields, hparts]
  exact (Entry.formedOf_append_of_blank hblank _).symm

/-- A line without quotes has as many fields as its first record has parts. -/
theorem length_fields_of_unquoted (h : Row.Separates delimiter) (hkept : isPassedOver line = false)
    (hquote : '"' ∉ line) (hlf : '\n' ∉ line) (hmark : line.head? ≠ some '\ufeff') :
    (Row.fields delimiter (String.ofList line)).length =
      (parts delimiter (firstRecord line)).length := by
  obtain ⟨front, first, others, -, hfields, hparts⟩ :=
    exists_fields_of_unquoted h hkept hquote hlf hmark
  rw [hfields, hparts, List.length_cons, List.length_cons]

end

/-! ### Lines without quotes -/

variable {format : LexiconFormat} {text : String} {line : List Char}
  {before behind : List (List Char)}

/-- A line of a lexicon is read between the lines in front of it and those behind it. -/
theorem readLexicon_of_line (list : SourceList)
    (hlines : lexiconLines text = before ++ line :: behind) :
    readLexicon list format text =
      readInTurn (readLines list format 1 before)
        (readInTurn (readLine list format (before.length + 1) line)
          (readLines list format (before.length + 2) behind)) := by
  rw [readLexicon, hlines, readLines_append, readLines_cons, Nat.add_comm 1]

/-- **A line without quotes becomes the entry that is formed of the parts of its first record, or a
diagnostic if there is none.** What stands behind that record begins with a carriage return and is
not read, so a line without carriage returns is read whole; and what is read in front of the line and
behind it stays as it is. Only where the sum of the fields of the key and the columns wraps around to
the number of the parts is the reading broken off at the line. -/
theorem readLexicon_of_unquoted (list : SourceList) (h : Row.Separates format.delimiter)
    (hlines : lexiconLines text = before ++ line :: behind) (hkept : isPassedOver line = false)
    (hquote : '"' ∉ line) (hmark : line.head? ≠ some '\ufeff') :
    (∃ back, line = firstRecord line ++ back ∧ (∀ c ∈ back.head?, c = '\r') ∧
        ('\r' ∉ line → back = [])) ∧
      ∃ outcome : Except (List Diagnostic) Harvest,
        readLexicon list format text =
          readInTurn (readLines list format 1 before)
            (readInTurn outcome (readLines list format (before.length + 2) behind)) ∧
        ((∃ e : Entry,
            e.FormedOf format.keyFields list.columns (parts format.delimiter (firstRecord line)) ∧
            outcome = .ok ⟨[e], []⟩) ∨
          (∃ fault,
            (∀ e : Entry, ¬ e.FormedOf format.keyFields list.columns
              (parts format.delimiter (firstRecord line))) ∧
            ¬ WrapsAround format list.columns
              (parts format.delimiter (firstRecord line)).length ∧
            outcome = .ok ⟨[], [⟨list.name, before.length + 1, fault⟩]⟩) ∨
          WrapsAround format list.columns (parts format.delimiter (firstRecord line)).length ∧
            outcome = .error []) := by
  have hmem : line ∈ lexiconLines text := by simp [hlines]
  have hlf := notMem_of_mem_lexiconLines hmem
  have hformed (e : Entry) : readEntry format list.columns line = some (.ok e) ↔
      e.FormedOf format.keyFields list.columns (parts format.delimiter (firstRecord line)) :=
    readEntry_eq_some_ok_iff.trans (formedOf_fields_iff h hkept hquote hlf hmark)
  have hwraps : readEntry format list.columns line = none ↔
      WrapsAround format list.columns (parts format.delimiter (firstRecord line)).length := by
    rw [readEntry_eq_none_iff, length_fields_of_unquoted h hkept hquote hlf hmark]
  refine ⟨exists_append_firstRecord hkept, _, readLexicon_of_line list hlines, ?_⟩
  rw [readLine, if_neg (by simp [hkept])]
  cases hread : readEntry format list.columns line with
  | none => exact .inr (.inr ⟨hwraps.mp hread, rfl⟩)
  | some outcome =>
      cases outcome with
      | ok e => exact .inl ⟨e, (hformed e).mp hread, rfl⟩
      | error fault =>
          refine .inr (.inl ⟨fault, fun e he => ?_, fun hwrapped => ?_, rfl⟩)
          · exact absurd (hread.symm.trans ((hformed e).mpr he)) (by simp)
          · exact absurd (hread.symm.trans (hwraps.mpr hwrapped)) (by simp)

/-- Between other lines, the part of a line that a carriage return cuts off is not missed. -/
theorem readLexicon_of_unquoted_between :
    Row.Separates LexiconFormat.standard.delimiter ∧
      lexiconLines "x;1\na;2\rb;c\ny;z" =
        ["x;1".toList] ++ "a;2\rb;c".toList :: ["y;z".toList] ∧
      isPassedOver "a;2\rb;c".toList = false ∧ '"' ∉ "a;2\rb;c".toList ∧
      "a;2\rb;c".toList.head? ≠ some '\ufeff' ∧
      ∃ e found, e.FormedOf 1 [⟨"n", .integer⟩] (parts 0x3B "a;2".toList) ∧
        readLexicon ⟨"l", "T", [⟨"n", .integer⟩]⟩ .standard "x;1\na;2\rb;c\ny;z" = .ok found ∧
        e ∈ found.entries ∧ found.diagnostics.map Diagnostic.line = [3] := by
  have hdelimiter : Row.Separates LexiconFormat.standard.delimiter :=
    ⟨by decide, by decide, by decide⟩
  have hlines : lexiconLines "x;1\na;2\rb;c\ny;z" =
      ["x;1".toList] ++ "a;2\rb;c".toList :: ["y;z".toList] := by
    decide +kernel
  have hkept : isPassedOver "a;2\rb;c".toList = false := by decide +kernel
  have hquote : '"' ∉ "a;2\rb;c".toList := by decide +kernel
  have hmark : "a;2\rb;c".toList.head? ≠ some '\ufeff' := by decide +kernel
  have hfirst : firstRecord "a;2\rb;c".toList = "a;2".toList := by decide +kernel
  have hbefore : readLines ⟨"l", "T", [⟨"n", .integer⟩]⟩ .standard 1 ["x;1".toList] =
      .ok ⟨[⟨["x"], [.integer 1]⟩], []⟩ := by
    decide +kernel
  have hbehind : readLines ⟨"l", "T", [⟨"n", .integer⟩]⟩ .standard 3 ["y;z".toList] =
      .ok ⟨[], [⟨"l", 3, .badLiteral "z" ⟨"n", .integer⟩⟩]⟩ := by
    decide +kernel
  have hformed : Entry.FormedOf 1 [⟨"n", .integer⟩] (parts 0x3B "a;2".toList)
      ⟨["a"], [.integer 2]⟩ :=
    ⟨by decide +kernel, by decide +kernel, by decide, by decide +kernel⟩
  refine ⟨hdelimiter, hlines, hkept, hquote, hmark, ?_⟩
  obtain ⟨-, outcome, hread, hcases⟩ :=
    readLexicon_of_unquoted ⟨"l", "T", [⟨"n", .integer⟩]⟩ hdelimiter hlines hkept hquote hmark
  rw [hfirst] at hcases
  rw [hbefore, List.length_singleton, hbehind] at hread
  obtain ⟨e, he, rfl⟩ | ⟨fault, hnone, -⟩ | ⟨hwraps, -⟩ := hcases
  · exact ⟨e, _, he, hread, by simp, rfl⟩
  · exact absurd hformed (hnone _)
  · exact absurd hwraps (not_wrapsAround (by decide))

/-- A line whose fields are too many is read as an entry if a carriage return stands in front of
those that are too many. -/
theorem carriage_return_hides_field :
    ¬ ∀ (list : SourceList) (format : LexiconFormat) (text : String) (line : List Char) (e : Entry),
      Row.Separates format.delimiter → lexiconLines text = [line] → isPassedOver line = false →
        '"' ∉ line → line.head? ≠ some '\ufeff' → readLexicon list format text = .ok ⟨[e], []⟩ →
          e.FormedOf format.keyFields list.columns (parts format.delimiter line) := by
  intro h
  have hformed := h ⟨"l", "T", []⟩ .standard "a\rb;c" "a\rb;c".toList ⟨["a"], []⟩
    ⟨by decide, by decide, by decide⟩ (by decide +kernel) (by decide +kernel) (by decide +kernel)
    (by decide +kernel) (by decide +kernel)
  exact absurd hformed.count_eq (by decide +kernel)

end AnnotatedText
