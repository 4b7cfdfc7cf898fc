import AnnotatedText.Path.Reference
import AnnotatedText.Proofs.Text.Numbers
import AnnotatedText.Proofs.Text.Parts

/-!
# The grammar of references

A reference is written as a name, or as a name with an index behind it: a numeral in brackets. Blanks
around the whole, in front of the brackets and inside them do not count. A name is not empty, has no
blanks around it and no bracket in it. This is what `Reference.Spelling` says, and every spelling is
read as the reference that it spells.

Reading looks for brackets as it needs them and not for each where it must not stand. So it reads a
little more than spellings: where there is no opening bracket it does not look whether there is a name,
and in front of one it does not look for closing brackets. A `Reference.Misspelling` is what is read
in this way, and nothing else is.

## Main results

* `Reference.readTrimmed_eq_ok_iff`: what is read of a text without blanks around it.
* `Reference.reads_spellings_and_misspellings`: what is read, and what is refused.
* `Reference.not_only_spellings_are_read`
-/

namespace AnnotatedText

/-! ### The grammar -/

/-- A text that can **be the name** of a feature where it is referred to. -/
structure IsFeatureName (cs : List Char) : Prop where
  ne_nil : cs ≠ []
  isTrimmed : Text.IsTrimmed cs
  no_opening : '[' ∉ cs
  no_closing : ']' ∉ cs

namespace Reference

/-- A text **is an index**: the numeral of a word in brackets. There may be blanks in front of the
brackets and inside them. -/
inductive IsIndex : List Char → Nat → Prop
  | intro {gap front numeral back : List Char} {i : Nat}
      (hgap : ∀ c ∈ gap, Text.isBlank c = true) (hfront : ∀ c ∈ front, Text.isBlank c = true)
      (hback : ∀ c ∈ back, Text.isBlank c = true) (hnumeral : Text.IsNumeral numeral i)
      (hle : i ≤ Text.wordLimit) : IsIndex (gap ++ '[' :: (front ++ numeral ++ back ++ [']'])) i

/-- The **spellings** of a reference, without blanks around them. -/
inductive Spelling : List Char → Reference → Prop
  | name {name : List Char} (h : IsFeatureName name) : Spelling name ⟨String.ofList name, none⟩
  | indexed {name index : List Char} {i : Nat} (h : IsFeatureName name) (hi : IsIndex index i) :
      Spelling (name ++ index) ⟨String.ofList name, some i⟩

/-- The texts that are read as a reference and are no spellings. -/
inductive Misspelling : List Char → Reference → Prop
  /-- Without an index the name may be missing. -/
  | unnamed : Misspelling [] ⟨"", none⟩
  /-- In front of an index there may be closing brackets in the name. -/
  | closing {name index : List Char} {i : Nat} (htrimmed : Text.IsTrimmed name)
      (hopening : '[' ∉ name) (hclosing : ']' ∈ name) (hi : IsIndex index i) :
      Misspelling (name ++ index) ⟨String.ofList name, some i⟩

variable {cs name index before inner : List Char} {r : Reference} {i : Nat}

/-- The name of what is spelled is the name of a feature. -/
theorem Spelling.isFeatureName (h : Spelling cs r) : IsFeatureName r.name.toList := by
  cases h with
  | name h => rwa [String.toList_ofList]
  | indexed h hi => rwa [String.toList_ofList]

/-- The name of what is misspelled is none. -/
theorem Misspelling.not_isFeatureName (h : Misspelling cs r) : ¬ IsFeatureName r.name.toList := by
  intro hname
  cases h with
  | unnamed => exact hname.ne_nil rfl
  | closing htrimmed hopening hclosing hi =>
      rw [String.toList_ofList] at hname
      exact hname.no_closing hclosing

/-! ### Reading -/

/-- A text is read without the blanks around it. -/
theorem read_eq_ok_iff_readTrimmed {w : String} :
    read w = .ok r ↔ readTrimmed (Text.trim w.toList) = .ok r := by
  rw [read]
  cases readTrimmed (Text.trim w.toList) with
  | error fault => constructor <;> intro h <;> cases h
  | ok found =>
      exact ⟨fun h => congrArg Except.ok (Except.ok.inj h),
        fun h => congrArg Except.ok (Except.ok.inj h)⟩

/-- A reference with an index has a number in its brackets and a name in front of them. -/
theorem readIndexed_eq_ok_iff :
    readIndexed before inner = .ok r ↔
      ∃ i, Text.readNatural Text.wordLimit (Text.trim inner) = .ok i ∧ Text.trimEnd before ≠ [] ∧
        r = ⟨String.ofList (Text.trimEnd before), some i⟩ := by
  rw [readIndexed]
  cases Text.readNatural Text.wordLimit (Text.trim inner) with
  | error fault => simp
  | ok i => by_cases hname : Text.trimEnd before = [] <;> simp [hname, eq_comm]

/-- The brackets with what is in them, and the blanks in front of them, are an index. -/
theorem exists_index (h : Text.readNatural Text.wordLimit (Text.trim inner) = .ok i)
    (before : List Char) :
    ∃ index, before ++ '[' :: (inner ++ [']']) = Text.trimEnd before ++ index ∧ IsIndex index i := by
  obtain ⟨hnumeral, hle⟩ := Text.readNatural_eq_ok_iff.mp h
  obtain ⟨gap, hbefore, hgap⟩ := Text.exists_trimEnd before
  obtain ⟨front, back, hinner, hfront, hback⟩ := Text.exists_trim inner
  refine ⟨gap ++ '[' :: (front ++ Text.trim inner ++ back ++ [']']), ?_,
    .intro hgap hfront hback hnumeral hle⟩
  rw [← hinner, ← List.append_assoc, ← hbefore]

/-- **A name with an index behind it is read.** -/
theorem readTrimmed_append_index (hne : name ≠ []) (htrimmed : Text.IsTrimmed name)
    (hopening : '[' ∉ name) (hi : IsIndex index i) :
    readTrimmed (name ++ index) = .ok ⟨String.ofList name, some i⟩ := by
  obtain @⟨gap, front, numeral, back, _, hgap, hfront, hback, hnumeral, hle⟩ := hi
  -- the first opening bracket is the one of the index, since it is no blank
  have hfirst : '[' ∉ name ++ gap := by
    intro hmem
    rcases List.mem_append.mp hmem with hmem | hmem
    · exact hopening hmem
    · exact absurd (hgap _ hmem) (by decide)
  have hwhole : Text.IsTrimmed numeral :=
    ⟨fun c hc => hnumeral.isBlank_eq_false (List.mem_of_mem_head? hc),
      fun c hc => hnumeral.isBlank_eq_false (List.mem_of_mem_getLast? hc)⟩
  have hnumber : Text.readNatural Text.wordLimit (Text.trim (front ++ numeral ++ back)) = .ok i := by
    rw [hwhole.trim_append hfront hback]
    exact Text.readNatural_eq_ok_iff.mpr ⟨hnumeral, hle⟩
  have hname : Text.trimEnd (name ++ gap) = name := by
    rw [Text.trimEnd_append_of_blank hgap, htrimmed.trimEnd_eq]
  rw [← List.append_assoc, readTrimmed, Text.splitFirst_append_of_notMem hfirst]
  simp only [List.getLast?_concat, List.dropLast_concat, if_true]
  exact readIndexed_eq_ok_iff.mpr ⟨i, hnumber, hname.symm ▸ hne, by rw [hname]⟩

/-- **Every spelling is read** as the reference that it spells. -/
theorem Spelling.readTrimmed_eq (h : Spelling cs r) : readTrimmed cs = .ok r := by
  cases h with
  | name h => simp [readTrimmed, Text.splitFirst_of_notMem h.no_opening, h.no_closing]
  | indexed h hi => exact readTrimmed_append_index h.ne_nil h.isTrimmed h.no_opening hi

/-- So is every misspelling. -/
theorem Misspelling.readTrimmed_eq (h : Misspelling cs r) : readTrimmed cs = .ok r := by
  cases h with
  | unnamed => rfl
  | closing htrimmed hopening hclosing hi =>
      exact readTrimmed_append_index (List.ne_nil_of_mem hclosing) htrimmed hopening hi

/-- **No misspelling is a spelling**, of whatever reference. -/
theorem Misspelling.not_spelling {r' : Reference} (h : Misspelling cs r) : ¬ Spelling cs r' := by
  intro hspelling
  obtain rfl : r = r' := Except.ok.inj (h.readTrimmed_eq.symm.trans hspelling.readTrimmed_eq)
  exact h.not_isFeatureName hspelling.isFeatureName

/-- **What is read of a text without blanks around it** is what it spells or misspells. -/
theorem readTrimmed_eq_ok_iff (hcs : Text.IsTrimmed cs) :
    readTrimmed cs = .ok r ↔ Spelling cs r ∨ Misspelling cs r := by
  refine ⟨fun h => ?_, fun h => h.elim Spelling.readTrimmed_eq Misspelling.readTrimmed_eq⟩
  rw [readTrimmed] at h
  cases hsplit : Text.splitFirst '[' cs with
  | none =>
      by_cases hclosing : ']' ∈ cs
      · simp [hsplit, hclosing] at h
      · obtain rfl : ⟨String.ofList cs, none⟩ = r := by simpa [hsplit, hclosing] using h
        by_cases hne : cs = []
        · subst hne
          exact Or.inr .unnamed
        · exact Or.inl (.name ⟨hne, hcs, Text.notMem_of_splitFirst hsplit, hclosing⟩)
  | some parts =>
      obtain ⟨before, behind⟩ := parts
      obtain ⟨rfl, hfirst⟩ := Text.splitFirst_eq_some hsplit
      by_cases hlast : behind.getLast? = some ']'
      · simp only [hsplit, hlast, if_true] at h
        obtain ⟨i, hnumber, hne, rfl⟩ := readIndexed_eq_ok_iff.mp h
        obtain ⟨index, hindex, hi⟩ := exists_index hnumber before
        have htrimmed := hcs.trimEnd_left
        have hopening : '[' ∉ Text.trimEnd before := fun hmem =>
          hfirst ((Text.trimEnd_isPrefix before).mem hmem)
        rw [List.dropLast_append_getLast? _ hlast] at hindex
        rw [hindex]
        by_cases hclosing : ']' ∈ Text.trimEnd before
        · exact Or.inr (.closing htrimmed hopening hclosing hi)
        · exact Or.inl (.indexed ⟨hne, htrimmed, hopening, hclosing⟩ hi)
      · simp [hsplit, hlast] at h

/-- The faults for which a text is refused. -/
theorem fault_of_readTrimmed {fault : ResolutionFault} (h : readTrimmed cs = .error fault) :
    fault = .unbalancedIndex ∨ fault = .emptyName ∨ ∃ cause, fault = .invalidIndex cause := by
  rw [readTrimmed] at h
  cases hsplit : Text.splitFirst '[' cs with
  | none =>
      by_cases hclosing : ']' ∈ cs
      · exact Or.inl (by simpa [hsplit, hclosing] using h.symm)
      · simp [hsplit, hclosing] at h
  | some parts =>
      by_cases hlast : parts.2.getLast? = some ']'
      · simp only [hsplit, hlast, if_true, readIndexed] at h
        cases hnumber : Text.readNatural Text.wordLimit (Text.trim parts.2.dropLast) with
        | error cause => exact Or.inr (Or.inr ⟨cause, by simpa [hnumber] using h.symm⟩)
        | ok i =>
            by_cases hname : Text.trimEnd parts.1 = []
            · exact Or.inr (Or.inl (by simpa [hnumber, hname] using h.symm))
            · simp [hnumber, hname] at h
      · exact Or.inl (by simpa [hsplit, hlast] using h.symm)

/-- **What is read as a reference, and what is refused.** A text is read if, without the blanks around
it, it is a spelling or one of the misspellings, which are no spellings; and it is read as what it
spells or misspells. Every other text is refused. The error then names the text without the blanks
around it and no type, and says that the brackets do not fit, that there is no name, or what is wrong
with the number. -/
theorem reads_spellings_and_misspellings (s : String) :
    (∀ r, read s = .ok r ↔
      Spelling (Text.trim s.toList) r ∨ Misspelling (Text.trim s.toList) r) ∧
    (¬ ∃ r r', Spelling (Text.trim s.toList) r ∧ Misspelling (Text.trim s.toList) r') ∧
    ((∃ e, read s = .error e) ↔
      ¬ ∃ r, Spelling (Text.trim s.toList) r ∨ Misspelling (Text.trim s.toList) r) ∧
    ∀ e, read s = .error e → e.segment = Text.trimmed s ∧ e.typeName? = none ∧
      (e.fault = .unbalancedIndex ∨ e.fault = .emptyName ∨ ∃ cause, e.fault = .invalidIndex cause) := by
  have hread (r : Reference) : read s = .ok r ↔
      Spelling (Text.trim s.toList) r ∨ Misspelling (Text.trim s.toList) r :=
    read_eq_ok_iff_readTrimmed.trans (readTrimmed_eq_ok_iff (Text.isTrimmed_trim _))
  refine ⟨hread, ?_, ?_, fun e he => ?_⟩
  · rintro ⟨r, r', hspelling, hmisspelling⟩
    exact hmisspelling.not_spelling hspelling
  · simp only [← hread]
    cases read s with
    | error e => simp
    | ok r => simp
  · rw [read] at he
    cases hfault : readTrimmed (Text.trim s.toList) with
    | ok r => simp [hfault, Except.mapError] at he
    | error fault =>
        obtain rfl : ⟨String.ofList (Text.trim s.toList), none, fault⟩ = e := by
          simpa [hfault, Except.mapError] using he
        exact ⟨rfl, rfl, fault_of_readTrimmed hfault⟩

/-- A name with a closing bracket in it and the empty name are read, and no spelling has either. -/
theorem not_only_spellings_are_read :
    (read "a]b[0]" = .ok ⟨"a]b", some 0⟩ ∧ ¬ ∃ r, Spelling (Text.trim "a]b[0]".toList) r) ∧
      read "" = .ok ⟨"", none⟩ ∧ ¬ ∃ r, Spelling (Text.trim "".toList) r := by
  have hnone {w : String} {r : Reference} (h : read w = .ok r)
      (hname : ']' ∈ r.name.toList ∨ r.name.toList = []) :
      ¬ ∃ r', Spelling (Text.trim w.toList) r' := by
    rintro ⟨r', hspelling⟩
    obtain rfl : r = r' :=
      Except.ok.inj ((read_eq_ok_iff_readTrimmed.mp h).symm.trans hspelling.readTrimmed_eq)
    rcases hname with hclosing | hempty
    · exact hspelling.isFeatureName.no_closing hclosing
    · exact hspelling.isFeatureName.ne_nil hempty
  have hstray : read "a]b[0]" = .ok ⟨"a]b", some 0⟩ := by decide +kernel
  have hempty : read "" = .ok ⟨"", none⟩ := by decide +kernel
  exact ⟨⟨hstray, hnone hstray (Or.inl (by decide))⟩, hempty, hnone hempty (Or.inr rfl)⟩

end Reference

end AnnotatedText
