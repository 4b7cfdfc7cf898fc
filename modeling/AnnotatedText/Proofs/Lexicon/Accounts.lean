import AnnotatedText.Proofs.Lexicon.Entries
import AnnotatedText.Proofs.Lexicon.Lines
import Mathlib.Data.List.Basic

/-!
# Every line accounted for

No line of a lexicon is lost and none makes a difference to another. What a line yields is told
without any reading, `Yields`: nothing if it is passed over, else the entry that is formed of its
fields, or a diagnostic with its number if none is. So a quote that a line leaves open, or a row that
does not fit, ends with its line, and a text that ends its last line can be read apart from what
follows it: only the numbers of the lines behind go on from it.

There is one way to lose lines, `BreaksOff`. Where the fields of the key and the columns are more than
a word of 64 bits tells, a line with as many fields as their sum wraps around to ends the reading, and
nothing is left of its entries (`wrapped_sum_loses_lines`).

## Main results

* `lexiconLines_append`, `readLines_add`: lines behind others, and what they give there.
* `isReading_readLines`: every line yields what it is to yield, or the lines break off.
* `readLexicon_accounts_for_lines`: both for the whole text of a lexicon.
-/

namespace AnnotatedText

/-! ### Texts one after the other -/

/-- A text **ends its last line** if there is no line feed missing at its end. -/
def Text.EndsLine (s : String) : Prop := ∀ c ∈ s.toList.getLast?, c = '\n'

/-- The lines of a text that ends its last line stand in front of all others. -/
theorem Text.EndsLine.rawLines_append {s : String} (h : EndsLine s) (cs : List Char) :
    rawLines (s.toList ++ cs) = rawLines s.toList ++ rawLines cs := by
  rcases List.eq_nil_or_concat s.toList with hnil | ⟨body, c, hs⟩
  · rw [hnil]
    rfl
  · obtain rfl : c = '\n' := h c (by rw [hs]; simp)
    rw [hs, List.concat_eq_append, List.append_assoc, List.singleton_append, Text.rawLines_append]

/-- **The lines of two texts** are those of each, if the first ends its last line. -/
theorem lexiconLines_append {first : String} (h : Text.EndsLine first) (second : String) :
    lexiconLines (first ++ second) = lexiconLines first ++ lexiconLines second := by
  simp only [lexiconLines, Text.lines, String.toList_append, h.rawLines_append, List.map_append]

/-- The diagnostic of the line that stands `count` lines further on. -/
def Diagnostic.later (count : Nat) (d : Diagnostic) : Diagnostic := { d with line := d.line + count }

/-- What is read **further on**, behind as many other lines: the same, with the diagnostics further
on. -/
def numberedOn (count : Nat) : Except (List Diagnostic) Harvest → Except (List Diagnostic) Harvest
  | .error ds => .error (ds.map (Diagnostic.later count))
  | .ok found => .ok ⟨found.entries, found.diagnostics.map (Diagnostic.later count)⟩

/-- Counting on reaches both of two readings in turn. -/
theorem numberedOn_readInTurn (count : Nat) (r s : Except (List Diagnostic) Harvest) :
    numberedOn count (readInTurn r s) = readInTurn (numberedOn count r) (numberedOn count s) := by
  cases r <;> cases s <;> simp [numberedOn, readInTurn]

variable {list : SourceList} {format : LexiconFormat} {number : Nat} {lines : List (List Char)}

/-- A line that stands further down yields the same with greater numbers. -/
theorem readLine_add (count : Nat) (line : List Char) :
    readLine list format (number + count) line =
      numberedOn count (readLine list format number line) := by
  simp only [readLine]
  cases isPassedOver line with
  | true => rfl
  | false =>
      cases readEntry format list.columns line with
      | none => rfl
      | some outcome => cases outcome <;> rfl

/-- **Lines further on** give the same, numbered on. -/
theorem readLines_add (count : Nat) :
    readLines list format (number + count) lines =
      numberedOn count (readLines list format number lines) := by
  induction lines generalizing number with
  | nil => rfl
  | cons line rest ih =>
      have hrest := @ih (number + 1)
      rw [Nat.add_right_comm] at hrest
      rw [readLines_cons, readLines_cons, hrest, readLine_add, numberedOn_readInTurn]

/-! ### What lines yield -/

/-- Lines of which the first has the number `number` **yield** entries and diagnostics: each line
that is not passed over adds either the entry that is formed of its fields or, if there is none and
no sum wraps around to their number, a diagnostic with its number. -/
inductive Yields (list : SourceList) (format : LexiconFormat) :
    Nat → List (List Char) → List Entry → List Diagnostic → Prop
  | nil (number : Nat) : Yields list format number [] [] []
  | passedOver {number : Nat} {line : List Char} {lines : List (List Char)} {es : List Entry}
      {ds : List Diagnostic} (h : isPassedOver line = true)
      (hrest : Yields list format (number + 1) lines es ds) :
      Yields list format number (line :: lines) es ds
  | entry {number : Nat} {line : List Char} {lines : List (List Char)} {es : List Entry}
      {ds : List Diagnostic} (h : isPassedOver line = false) {e : Entry}
      (he : e.FormedOf format.keyFields list.columns
        (Row.fields format.delimiter (String.ofList line)))
      (hrest : Yields list format (number + 1) lines es ds) :
      Yields list format number (line :: lines) (e :: es) ds
  | fault {number : Nat} {line : List Char} {lines : List (List Char)} {es : List Entry}
      {ds : List Diagnostic} (h : isPassedOver line = false)
      (hnone : ∀ e : Entry, ¬ e.FormedOf format.keyFields list.columns
        (Row.fields format.delimiter (String.ofList line)))
      (hwhole : ¬ WrapsAround format list.columns
        (Row.fields format.delimiter (String.ofList line)).length) (fault : EntryFault)
      (hrest : Yields list format (number + 1) lines es ds) :
      Yields list format number (line :: lines) es (⟨list.name, number, fault⟩ :: ds)

/-- Lines **break off** with diagnostics: the sum wraps around to the number of the fields of one of
them, and those in front of it yield the diagnostics. -/
def BreaksOff (list : SourceList) (format : LexiconFormat) (number : Nat)
    (lines : List (List Char)) (ds : List Diagnostic) : Prop :=
  ∃ before line behind es, lines = before ++ line :: behind ∧ isPassedOver line = false ∧
    WrapsAround format list.columns (Row.fields format.delimiter (String.ofList line)).length ∧
    Yields list format number before es ds

/-- Lines break off with what a first line adds to it. -/
theorem BreaksOff.cons {line : List Char} {ds ds' : List Diagnostic}
    (h : BreaksOff list format (number + 1) lines ds)
    (hline : ∀ before es, Yields list format (number + 1) before es ds →
      ∃ es', Yields list format number (line :: before) es' ds') :
    BreaksOff list format number (line :: lines) ds' := by
  obtain ⟨before, last, behind, es, rfl, hlast, hwraps, hyields⟩ := h
  obtain ⟨es', hyields'⟩ := hline before es hyields
  exact ⟨line :: before, last, behind, es', rfl, hlast, hwraps, hyields'⟩

/-- An outcome **is a reading** of lines if it is what they yield, or they break off with it. -/
def IsReading (list : SourceList) (format : LexiconFormat) (number : Nat)
    (lines : List (List Char)) : Except (List Diagnostic) Harvest → Prop
  | .error ds => BreaksOff list format number lines ds
  | .ok found => Yields list format number lines found.entries found.diagnostics

/-- **Every line yields what it is to yield**, up to one at which the lines break off. -/
theorem isReading_readLines (list : SourceList) (format : LexiconFormat) (number : Nat)
    (lines : List (List Char)) :
    IsReading list format number lines (readLines list format number lines) := by
  induction lines generalizing number with
  | nil => exact .nil number
  | cons line rest ih =>
      have hrest := ih (number + 1)
      rw [readLines_cons, readLine]
      generalize readLines list format (number + 1) rest = more at hrest
      cases hline : isPassedOver line with
      | true =>
          rw [if_pos rfl, readInTurn_nothing]
          cases more with
          | error ds => exact BreaksOff.cons hrest fun _ es h => ⟨es, .passedOver hline h⟩
          | ok found => exact .passedOver hline hrest
      | false =>
          rw [if_neg Bool.false_ne_true]
          cases hread : readEntry format list.columns line with
          | none =>
              exact ⟨[], line, rest, [], rfl, hline, readEntry_eq_none_iff.mp hread, .nil number⟩
          | some outcome =>
              cases outcome with
              | ok e =>
                  have he := readEntry_eq_some_ok_iff.mp hread
                  cases more with
                  | error ds => exact BreaksOff.cons hrest fun _ es h => ⟨e :: es, .entry hline he h⟩
                  | ok found => exact .entry hline he hrest
              | error fault =>
                  have hnone (e : Entry) : ¬ e.FormedOf format.keyFields list.columns
                      (Row.fields format.delimiter (String.ofList line)) := fun he => by
                    rw [readEntry_eq_some_ok_iff.mpr he] at hread
                    cases hread
                  have hwhole : ¬ WrapsAround format list.columns
                      (Row.fields format.delimiter (String.ofList line)).length := fun hwraps => by
                    rw [readEntry_eq_none_iff.mpr hwraps] at hread
                    cases hread
                  cases more with
                  | error ds =>
                      exact BreaksOff.cons hrest fun _ es h =>
                        ⟨es, .fault hline hnone hwhole fault h⟩
                  | ok found => exact .fault hline hnone hwhole fault hrest

namespace Yields

variable {es : List Entry} {ds : List Diagnostic}

/-- There are as many entries and diagnostics as lines that are not passed over. -/
theorem count_eq (h : Yields list format number lines es ds) :
    es.length + ds.length = lines.countP fun line => !isPassedOver line := by
  induction h with
  | nil => rfl
  | passedOver h _ ih => rw [List.countP_cons_of_neg (by simp [h]), ih]
  | entry h _ _ ih =>
      rw [List.countP_cons_of_pos (by simp [h]), ← ih, List.length_cons, Nat.add_right_comm]
  | fault h _ _ _ _ ih =>
      rw [List.countP_cons_of_pos (by simp [h]), ← ih, List.length_cons, Nat.add_assoc]

/-- A diagnostic tells the list and the number of a line that is not passed over. -/
theorem exists_line (h : Yields list format number lines es ds) {d : Diagnostic} (hd : d ∈ ds) :
    d.source = list.name ∧ ∃ i line, d.line = number + i ∧ lines[i]? = some line ∧
      isPassedOver line = false := by
  induction h with
  | nil => cases hd
  | passedOver h _ ih | entry h _ _ ih =>
      obtain ⟨hsource, i, line, hnumber, hline, hkept⟩ := ih hd
      exact ⟨hsource, i + 1, line, by omega, hline, hkept⟩
  | fault h _ _ fault _ ih =>
      rcases List.mem_cons.mp hd with rfl | hd
      · exact ⟨rfl, 0, _, rfl, rfl, h⟩
      · obtain ⟨hsource, i, line, hnumber, hline, hkept⟩ := ih hd
        exact ⟨hsource, i + 1, line, by omega, hline, hkept⟩

/-- The numbers of the diagnostics increase, so no line has two of them. -/
theorem increasing (h : Yields list format number lines es ds) :
    ds.Pairwise fun a b => a.line < b.line := by
  induction h with
  | nil => exact List.Pairwise.nil
  | passedOver _ _ ih | entry _ _ _ ih => exact ih
  | fault _ _ _ _ hrest ih =>
      refine List.pairwise_cons.mpr ⟨fun d hd => ?_, ih⟩
      obtain ⟨-, i, -, hnumber, -⟩ := hrest.exists_line hd
      rw [hnumber]
      exact Nat.lt_of_lt_of_le (Nat.lt_succ_self _) (Nat.le_add_right _ i)

end Yields

/-! ### The whole lexicon -/

/-- What is read of a text **accounts for** its lines. -/
structure Harvest.AccountsFor (h : Harvest) (list : SourceList) (format : LexiconFormat)
    (lines : List (List Char)) : Prop where
  yields : Yields list format 1 lines h.entries h.diagnostics
  count_eq : h.entries.length + h.diagnostics.length = lines.countP fun line => !isPassedOver line
  increasing : h.diagnostics.Pairwise fun a b => a.line < b.line
  /-- Lines are numbered from one. -/
  line_of_diagnostic : ∀ d ∈ h.diagnostics, d.source = list.name ∧ 1 ≤ d.line ∧
    ∃ line, lines[d.line - 1]? = some line ∧ isPassedOver line = false
  proper : ∀ e ∈ h.entries, e.Proper list.columns

/-- A lexicon is read to its end if the fields of the key and the columns are counted by a word of 64
bits. -/
theorem exists_readLexicon_eq_ok {list : SourceList} {format : LexiconFormat}
    (h : format.keyFields + list.columns.length < UInt64.size) (text : String) :
    ∃ found, readLexicon list format text = .ok found := by
  cases hread : readLexicon list format text with
  | ok found => exact ⟨found, rfl⟩
  | error ds =>
      have hbroken := isReading_readLines list format 1 (lexiconLines text)
      rw [← readLexicon, hread] at hbroken
      obtain ⟨_, _, _, _, _, _, hwraps, _⟩ := hbroken
      exact absurd hwraps (not_wrapsAround h)

/-- **Every line of a lexicon is accounted for, by itself.** A text that ends its last line is read
apart from what follows it, whose lines are numbered on from it; and in every text each line that is
not passed over yields either one entry, which has a key and the attributes of the columns, or one
diagnostic with its number. The only texts that are not read to their end are those that break off,
and there are none as long as the fields of the key and the columns are counted by a word of 64
bits. -/
theorem readLexicon_accounts_for_lines (list : SourceList) (format : LexiconFormat) :
    (∀ first second : String, Text.EndsLine first →
      readLexicon list format (first ++ second) =
        readInTurn (readLexicon list format first)
          (numberedOn (Text.lines first.toList).length (readLexicon list format second))) ∧
      (∀ text found, readLexicon list format text = .ok found →
        found.AccountsFor list format (lexiconLines text)) ∧
      (∀ text ds, readLexicon list format text = .error ds →
        BreaksOff list format 1 (lexiconLines text) ds) ∧
      (format.keyFields + list.columns.length < UInt64.size →
        ∀ text, ∃ found, readLexicon list format text = .ok found) := by
  have hreading (text : String) :
      IsReading list format 1 (lexiconLines text) (readLexicon list format text) :=
    isReading_readLines list format 1 (lexiconLines text)
  refine ⟨fun first second hfirst => ?_, fun text found hread => ?_, fun text ds hread => ?_,
    exists_readLexicon_eq_ok⟩
  · have hlength : (Text.lines first.toList).length = (lexiconLines first).length := by
      rw [lexiconLines, List.length_map]
    rw [readLexicon, lexiconLines_append hfirst, readLines_append, readLines_add, hlength]
    rfl
  · have hyields := hreading text
    rw [hread] at hyields
    refine ⟨hyields, hyields.count_eq, hyields.increasing, fun d hd => ?_,
      fun e he => proper_of_readLexicon hread he⟩
    obtain ⟨hsource, i, line, hnumber, hline, hkept⟩ := hyields.exists_line hd
    have hi : d.line - 1 = i := by omega
    exact ⟨hsource, by omega, line, hi ▸ hline, hkept⟩
  · have hbroken := hreading text
    rw [hread] at hbroken
    exact hbroken

/-- A quote that is left open takes nothing from the lines behind it, and these are numbered on. -/
theorem readLexicon_accounts_for_open_quote :
    Text.EndsLine "\"a;1\n\n" ∧
      readLexicon ⟨"l", "T", [⟨"n", .integer⟩]⟩ .standard ("\"a;1\n\n" ++ "b;2\r\nc;x") =
        .ok ⟨[⟨["b"], [.integer 2]⟩],
          [⟨"l", 1, .fieldCount 2 1⟩, ⟨"l", 4, .badLiteral "x" ⟨"n", .integer⟩⟩]⟩ := by
  have hlast : "\"a;1\n\n".toList.getLast? = some '\n' := by decide +kernel
  have hends : Text.EndsLine "\"a;1\n\n" := fun c hc => Option.some.inj (hc.symm.trans hlast)
  refine ⟨hends, ?_⟩
  rw [(readLexicon_accounts_for_lines ⟨"l", "T", [⟨"n", .integer⟩]⟩ .standard).1 _ _ hends]
  decide +kernel

/-- With two columns beside more fields of the key than any line has, a line of one field is neither
an entry nor a diagnostic: the sum of the fields wraps around to one. -/
theorem wrapped_sum_loses_lines :
    ¬ ∀ (list : SourceList) (format : LexiconFormat) (text : String), ∃ found,
      readLexicon list format text = .ok found ∧
        found.entries.length + found.diagnostics.length =
          (lexiconLines text).countP fun line => !isPassedOver line := by
  intro h
  obtain ⟨found, hread, -⟩ := h ⟨"l", "T", [⟨"x", .string⟩, ⟨"y", .string⟩]⟩
    ⟨0x3B, 18446744073709551615, .utf8⟩ "a"
  have hbroken : readLexicon ⟨"l", "T", [⟨"x", .string⟩, ⟨"y", .string⟩]⟩
      ⟨0x3B, 18446744073709551615, .utf8⟩ "a" = .error [] := by
    decide +kernel
  exact absurd (hbroken.symm.trans hread) (by simp)

end AnnotatedText
