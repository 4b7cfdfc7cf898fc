/-!
# Cutting a text at a character

Splitting at every occurrence of a character, at the first one and at the last one. The character
itself belongs to none of the parts.
-/

namespace AnnotatedText.Text

/-- Puts a character in front of the first part. -/
def prependToFirst (c : Char) : List (List Char) → List (List Char)
  | [] => [[c]]
  | part :: parts => (c :: part) :: parts

/-- The parts of a text between the occurrences of `sep`; a text without any is its only part. -/
def splitAll (sep : Char) : List Char → List (List Char)
  | [] => [[]]
  | c :: rest => if c = sep then [] :: splitAll sep rest else prependToFirst c (splitAll sep rest)

/-- The parts before and behind the first occurrence of `sep`. -/
def splitFirst (sep : Char) : List Char → Option (List Char × List Char)
  | [] => none
  | c :: rest =>
    if c = sep then some ([], rest)
    else (splitFirst sep rest).map fun (before, behind) => (c :: before, behind)

/-- The parts before and behind the last occurrence of `sep`. -/
def splitLast (sep : Char) (cs : List Char) : Option (List Char × List Char) :=
  (splitFirst sep cs.reverse).map fun (behind, before) => (before.reverse, behind.reverse)

/-- A text is split at the first separator into the two parts around it. -/
theorem splitFirst_eq_some {sep : Char} {cs before behind : List Char}
    (h : splitFirst sep cs = some (before, behind)) :
    cs = before ++ sep :: behind ∧ sep ∉ before := by
  induction cs generalizing before behind with
  | nil => simp [splitFirst] at h
  | cons c rest ih =>
    simp only [splitFirst] at h
    split at h
    · simp_all
    · rename_i hc
      obtain ⟨⟨b, d⟩, hs, heq⟩ := Option.map_eq_some_iff.1 h
      obtain ⟨hrest, hmem⟩ := ih hs
      simp only [Prod.mk.injEq] at heq
      obtain ⟨rfl, rfl⟩ := heq
      exact ⟨by simp [hrest], by simp [hmem, Ne.symm hc]⟩

/-- A text without the separator is not split. -/
theorem splitFirst_of_notMem {sep : Char} {cs : List Char} (h : sep ∉ cs) :
    splitFirst sep cs = none := by
  cases hsplit : splitFirst sep cs with
  | none => rfl
  | some parts =>
      obtain ⟨before, behind⟩ := parts
      obtain ⟨rfl, -⟩ := splitFirst_eq_some hsplit
      exact absurd (List.mem_append_right before List.mem_cons_self) h

/-- The last occurrence is the first one from behind. -/
theorem splitLast_eq_some {sep : Char} {cs before behind : List Char}
    (h : splitLast sep cs = some (before, behind)) :
    cs = before ++ sep :: behind ∧ sep ∉ behind := by
  obtain ⟨⟨b, d⟩, hs, heq⟩ := Option.map_eq_some_iff.1 h
  obtain ⟨hcs, hmem⟩ := splitFirst_eq_some hs
  simp only [Prod.mk.injEq] at heq
  obtain ⟨rfl, rfl⟩ := heq
  exact ⟨by simpa using congrArg List.reverse hcs, by simpa using hmem⟩

/-- A text without the separator is its own only part. -/
theorem splitAll_of_notMem {sep : Char} {cs : List Char} (h : sep ∉ cs) :
    splitAll sep cs = [cs] := by
  induction cs with
  | nil => rfl
  | cons c rest ih =>
    have hc : c ≠ sep := fun e => h (by simp [e])
    have hr : sep ∉ rest := fun e => h (List.mem_cons_of_mem _ e)
    simp [splitAll, hc, ih hr, prependToFirst]

end AnnotatedText.Text
