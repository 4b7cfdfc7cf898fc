import AnnotatedText.Text.Blank
import AnnotatedText.Text.Split
import Mathlib.Data.List.DropRight

/-!
# Parts of a text

What is left of a text when the blanks around it are taken off is `IsTrimmed`, and such a text is
left as it is. What a text is cut into at a separator does not hold the separator, and texts without
it are got back from the text that has the separator between them.

## Main results

* `Text.isTrimmed_trim`, `Text.IsTrimmed.trim_eq`
* `Text.exists_trim`, `Text.IsTrimmed.trim_append`: the blanks that are taken off.
* `Text.splitAll_intercalate`
-/

namespace AnnotatedText.Text

/-! ### Blanks at the ends -/

/-- A text **is trimmed** if it neither begins nor ends with a blank. -/
structure IsTrimmed (cs : List Char) : Prop where
  head : ∀ c ∈ cs.head?, isBlank c = false
  last : ∀ c ∈ cs.getLast?, isBlank c = false

theorem trimEnd_isPrefix (cs : List Char) : trimEnd cs <+: cs :=
  List.rdropWhile_prefix isBlank cs

/-- Trimming takes characters away and adds none. -/
theorem mem_of_mem_trim {cs : List Char} {c : Char} (h : c ∈ trim cs) : c ∈ cs :=
  (List.dropWhile_suffix isBlank).mem ((trimEnd_isPrefix (trimStart cs)).mem h)

/-- A text that begins with no blank is trimmed when the blanks it ends with are taken off. -/
theorem isTrimmed_trimEnd {cs : List Char} (h : ∀ c ∈ cs.head?, isBlank c = false) :
    IsTrimmed (trimEnd cs) := by
  constructor
  · intro c hc
    obtain ⟨tail, htail⟩ := trimEnd_isPrefix cs
    refine h c ?_
    rw [← htail, List.head?_append, Option.mem_def.mp hc]
    rfl
  · intro c hc
    obtain ⟨hne, rfl⟩ := List.mem_getLast?_eq_getLast hc
    exact Bool.eq_false_iff.mpr (List.rdropWhile_last_not isBlank cs hne)

/-- **What is left by trimming is trimmed.** -/
theorem isTrimmed_trim (cs : List Char) : IsTrimmed (trim cs) := by
  refine isTrimmed_trimEnd fun c hc => ?_
  have hhead := List.head?_dropWhile_not isBlank cs
  rw [show (cs.dropWhile isBlank).head? = some c from hc] at hhead
  exact hhead

/-- The beginning of a trimmed text is trimmed when the blanks it ends with are taken off. -/
theorem IsTrimmed.trimEnd_left {before behind : List Char} (h : IsTrimmed (before ++ behind)) :
    IsTrimmed (trimEnd before) := by
  refine isTrimmed_trimEnd fun c hc => h.head c ?_
  rw [List.head?_append, Option.mem_def.mp hc]
  rfl

/-- Nothing is trimmed at the end of what is trimmed. -/
theorem IsTrimmed.trimEnd_eq {cs : List Char} (h : IsTrimmed cs) : trimEnd cs = cs := by
  refine List.rdropWhile_eq_self_iff.mpr fun hne => ?_
  rw [h.last _ (List.getLast?_eq_some_getLast hne)]
  exact Bool.false_ne_true

/-- **A trimmed text is left as it is.** -/
theorem IsTrimmed.trim_eq {cs : List Char} (h : IsTrimmed cs) : trim cs = cs := by
  have hstart : trimStart cs = cs := by
    cases cs with
    | nil => rfl
    | cons c rest => exact List.dropWhile_cons_of_neg (by simp [h.head c rfl])
  rw [trim, hstart, h.trimEnd_eq]

/-- A text without blanks has none at its ends. -/
theorem trim_eq_self {cs : List Char} (h : ∀ c ∈ cs, isBlank c = false) : trim cs = cs :=
  IsTrimmed.trim_eq
    ⟨fun c hc => h c (List.mem_of_mem_head? hc), fun c hc => h c (List.mem_of_mem_getLast? hc)⟩

/-- What trimming takes off the end of a text are blanks. -/
theorem exists_trimEnd (cs : List Char) :
    ∃ gap, cs = trimEnd cs ++ gap ∧ ∀ c ∈ gap, isBlank c = true :=
  ⟨cs.rtakeWhile isBlank, List.rdropWhile_append_rtakeWhile.symm, fun _ => List.mem_rtakeWhile_imp⟩

/-- **What trimming takes off the ends of a text are blanks.** -/
theorem exists_trim (cs : List Char) :
    ∃ front back, cs = front ++ trim cs ++ back ∧ (∀ c ∈ front, isBlank c = true) ∧
      ∀ c ∈ back, isBlank c = true := by
  obtain ⟨back, hback, hblank⟩ := exists_trimEnd (trimStart cs)
  refine ⟨cs.takeWhile isBlank, back, ?_, fun c hc => List.mem_takeWhile_imp hc, hblank⟩
  calc cs = cs.takeWhile isBlank ++ trimStart cs := List.takeWhile_append_dropWhile.symm
    _ = cs.takeWhile isBlank ++ (trim cs ++ back) := congrArg _ hback
    _ = cs.takeWhile isBlank ++ trim cs ++ back := (List.append_assoc ..).symm

/-- Blanks at the end are taken off. -/
theorem trimEnd_append_of_blank {gap : List Char} (h : ∀ c ∈ gap, isBlank c = true)
    (cs : List Char) : trimEnd (cs ++ gap) = trimEnd cs := by
  have hreverse : ∀ c ∈ gap.reverse, isBlank c = true := fun c hc => h c (List.mem_reverse.mp hc)
  rw [trimEnd, List.reverse_append, List.dropWhile_append_of_pos hreverse, trimEnd]

/-- **A trimmed text is got back** when there are blanks around it. -/
theorem IsTrimmed.trim_append {front cs back : List Char} (h : IsTrimmed cs)
    (hfront : ∀ c ∈ front, isBlank c = true) (hback : ∀ c ∈ back, isBlank c = true) :
    trim (front ++ cs ++ back) = cs := by
  have hstart : trimStart (front ++ cs ++ back) = trimStart (cs ++ back) := by
    rw [trimStart, List.append_assoc, List.dropWhile_append_of_pos hfront, trimStart]
  rw [trim, hstart]
  cases cs with
  | nil =>
      have hnone : trimStart back = [] := List.dropWhile_eq_nil_iff.mpr hback
      rw [List.nil_append, hnone]
      rfl
  | cons c rest =>
      have hkept : trimStart (c :: rest ++ back) = c :: rest ++ back :=
        List.dropWhile_cons_of_neg (by simp [h.head c rfl])
      rw [hkept, trimEnd_append_of_blank hback, h.trimEnd_eq]

/-! ### Separators -/

/-- What stands in front of the first separator, and what stands behind it. -/
theorem splitFirst_append_of_notMem {sep : Char} {before : List Char} (h : sep ∉ before)
    (behind : List Char) : splitFirst sep (before ++ sep :: behind) = some (before, behind) := by
  induction before with
  | nil => simp [splitFirst]
  | cons c before ih =>
      obtain ⟨hc, hbefore⟩ := List.ne_and_not_mem_of_not_mem_cons h
      rw [List.cons_append, splitFirst, if_neg (Ne.symm hc), ih hbefore]
      rfl

/-- What stands in front of the last separator, and what stands behind it. -/
theorem splitLast_append_of_notMem {sep : Char} {behind : List Char} (h : sep ∉ behind)
    (before : List Char) : splitLast sep (before ++ sep :: behind) = some (before, behind) := by
  have hreverse : (before ++ sep :: behind).reverse = behind.reverse ++ sep :: before.reverse := by
    simp
  rw [splitLast, hreverse, splitFirst_append_of_notMem fun hmem => h (List.mem_reverse.mp hmem)]
  simp

/-- A text that is not split holds no separator. -/
theorem notMem_of_splitFirst {sep : Char} {cs : List Char} (h : splitFirst sep cs = none) :
    sep ∉ cs := by
  intro hmem
  obtain ⟨before, behind, rfl, hbefore⟩ := List.eq_append_cons_of_mem hmem
  rw [splitFirst_append_of_notMem hbefore] at h
  exact nomatch h

/-- There is a part before every separator, and one behind the last. -/
theorem splitAll_ne_nil (sep : Char) (cs : List Char) : splitAll sep cs ≠ [] := by
  cases cs with
  | nil => simp [splitAll]
  | cons c rest =>
      rw [splitAll]
      split
      · exact List.cons_ne_nil _ _
      · cases splitAll sep rest with
        | nil => exact List.cons_ne_nil _ _
        | cons part parts => exact List.cons_ne_nil _ _

/-- No part holds the separator. -/
theorem notMem_of_mem_splitAll {sep : Char} {cs part : List Char} (h : part ∈ splitAll sep cs) :
    sep ∉ part := by
  induction cs generalizing part with
  | nil =>
      obtain rfl := List.mem_singleton.mp h
      exact List.not_mem_nil
  | cons c rest ih =>
      rw [splitAll] at h
      split at h
      · obtain rfl | h := List.mem_cons.mp h
        · exact List.not_mem_nil
        · exact ih h
      · rename_i hc
        obtain ⟨first, others, hparts⟩ := List.exists_cons_of_ne_nil (splitAll_ne_nil sep rest)
        rw [hparts] at h ih
        obtain rfl | h := List.mem_cons.mp h
        · exact List.not_mem_cons_of_ne_of_not_mem (Ne.symm hc) (ih List.mem_cons_self)
        · exact ih (List.mem_cons_of_mem first h)

/-- The parts hold nothing but what the text holds. -/
theorem mem_of_mem_splitAll {sep : Char} {cs part : List Char} {d : Char}
    (h : part ∈ splitAll sep cs) (hd : d ∈ part) : d ∈ cs := by
  induction cs generalizing part with
  | nil =>
      obtain rfl := List.mem_singleton.mp h
      exact hd
  | cons c rest ih =>
      rw [splitAll] at h
      split at h
      · obtain rfl | h := List.mem_cons.mp h
        · exact absurd hd List.not_mem_nil
        · exact List.mem_cons_of_mem c (ih h hd)
      · obtain ⟨first, others, hparts⟩ := List.exists_cons_of_ne_nil (splitAll_ne_nil sep rest)
        rw [hparts] at h ih
        obtain rfl | h := List.mem_cons.mp h
        · obtain rfl | hd := List.mem_cons.mp hd
          · exact List.mem_cons_self
          · exact List.mem_cons_of_mem c (ih List.mem_cons_self hd)
        · exact List.mem_cons_of_mem c (ih (List.mem_cons_of_mem first h) hd)

/-- A beginning without separators belongs to the first part. -/
theorem splitAll_append_of_notMem {sep : Char} {front : List Char} (h : sep ∉ front)
    (cs : List Char) :
    ∃ part parts, splitAll sep cs = part :: parts ∧
      splitAll sep (front ++ cs) = (front ++ part) :: parts := by
  induction front with
  | nil =>
      obtain ⟨part, parts, hparts⟩ := List.exists_cons_of_ne_nil (splitAll_ne_nil sep cs)
      exact ⟨part, parts, hparts, hparts⟩
  | cons c front ih =>
      obtain ⟨hc, hfront⟩ := List.ne_and_not_mem_of_not_mem_cons h
      obtain ⟨part, parts, hcs, happend⟩ := ih hfront
      refine ⟨part, parts, hcs, ?_⟩
      rw [List.cons_append, splitAll, if_neg (Ne.symm hc), happend]
      rfl

/-- A text without separators in front of one is the first part. -/
theorem splitAll_append_cons {sep : Char} {part : List Char} (h : sep ∉ part) (rest : List Char) :
    splitAll sep (part ++ sep :: rest) = part :: splitAll sep rest := by
  obtain ⟨first, others, hcut, happend⟩ := splitAll_append_of_notMem h (sep :: rest)
  rw [splitAll, if_pos rfl] at hcut
  obtain ⟨rfl, rfl⟩ := List.cons.inj hcut
  rw [happend, List.append_nil]

/-- What has the separator between texts holds nothing else. -/
theorem mem_intercalate {sep c : Char} {parts : List (List Char)}
    (h : c ∈ [sep].intercalate parts) : c = sep ∨ ∃ part ∈ parts, c ∈ part := by
  induction parts with
  | nil => exact absurd h List.not_mem_nil
  | cons part parts ih =>
      cases parts with
      | nil =>
          rw [List.intercalate_singleton] at h
          exact .inr ⟨part, List.mem_cons_self, h⟩
      | cons next rest =>
          rw [List.intercalate_cons_cons, List.mem_append, List.mem_append] at h
          rcases h with (h | h) | h
          · exact .inr ⟨part, List.mem_cons_self, h⟩
          · exact .inl (List.mem_singleton.mp h)
          · obtain rfl | ⟨other, hother, h⟩ := ih h
            · exact .inl rfl
            · exact .inr ⟨other, List.mem_cons_of_mem part hother, h⟩

/-- **Texts without the separator are got back** from what has the separator between them. -/
theorem splitAll_intercalate {sep : Char} {parts : List (List Char)} (hne : parts ≠ [])
    (h : ∀ part ∈ parts, sep ∉ part) : splitAll sep ([sep].intercalate parts) = parts := by
  induction parts with
  | nil => exact absurd rfl hne
  | cons part parts ih =>
      obtain ⟨hpart, hparts⟩ := List.forall_mem_cons.mp h
      cases parts with
      | nil => rw [List.intercalate_singleton, splitAll_of_notMem hpart]
      | cons next rest =>
          rw [List.intercalate_cons_cons, List.append_assoc, List.singleton_append,
            splitAll_append_cons hpart, ih (List.cons_ne_nil next rest) hparts]

end AnnotatedText.Text
