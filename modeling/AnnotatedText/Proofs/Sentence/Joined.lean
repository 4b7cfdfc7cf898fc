import AnnotatedText.Proofs.Sentence.Stretches

/-!
# Joined tokens

Tokens that are joined by single blanks are told apart again: a token is a proper run that is not
blank, so it parts from the blank behind it, and a blank is a run by itself whatever stands next to
it. Blanks in front of a text add nothing to its tokens.

## Main results

* `tokenize_eq`: the tokens are the texts of the runs that are not blank.
* `tokenize_intercalate_tokenize`: the tokens of a text are those of its tokens joined by blanks.
-/

namespace AnnotatedText

open Runs

/-- The texts of tokens do not depend on where their runs begin. -/
theorem map_text_tokensFrom (start : Nat) (rs : List Run) :
    (tokensFrom start rs).map Token.text =
      (rs.filter fun r => r.1 ≠ .blank).map fun r => String.ofList r.2 := by
  induction rs generalizing start with
  | nil => rfl
  | cons r rest ih =>
      obtain ⟨k, cs⟩ := r
      rw [tokensFrom]
      by_cases hk : k = .blank
      · rw [if_pos hk, List.filter_cons_of_neg (by simp [hk])]
        exact ih _
      · rw [if_neg hk, List.filter_cons_of_pos (by simp [hk]), List.map_cons, List.map_cons, ih]

/-- **The tokens are the texts of the runs that are not blank.** -/
theorem tokenize_eq (s : String) :
    tokenize s = ((runs s.toList).filter fun r => r.1 ≠ .blank).map fun r => String.ofList r.2 :=
  map_text_tokensFrom 0 (runs s.toList)

/-- A blank is a run by itself. -/
theorem runs_cons_of_blank {c : Char} (hc : CharClass.of c = .blank) (cs : List Char) :
    runs (c :: cs) = (.blank, [c]) :: runs cs := by
  have hproper : Proper (.blank, [c]) := hc ▸ proper_singleton c
  have hparts : ∀ s ∈ (runs cs).head?, Part (.blank, [c]) s := by
    intro s _ hpart
    obtain ⟨hclass, hgrouped⟩ := hpart
    rw [← hclass] at hgrouped
    cases hgrouped
  exact hproper.runs_append hparts

/-- Blanks in front of a text are no part of its tokens. -/
theorem tokenize_append_of_blank {front : List Char}
    (h : ∀ c ∈ front, CharClass.of c = .blank) (cs : List Char) :
    tokenize (String.ofList (front ++ cs)) = tokenize (String.ofList cs) := by
  induction front with
  | nil => rfl
  | cons c front ih =>
      obtain ⟨hc, hfront⟩ := List.forall_mem_cons.mp h
      rw [← ih hfront, tokenize_eq, tokenize_eq, String.toList_ofList, String.toList_ofList,
        List.cons_append, runs_cons_of_blank hc, List.filter_cons_of_neg (by simp)]

/-- A run that is not blank is a token, in front of a blank and the text behind it. -/
theorem Runs.Proper.tokenize_append {r : Run} (h : Proper r) (hr : r.1 ≠ .blank)
    (cs : List Char) :
    tokenize (String.ofList (r.2 ++ ' ' :: cs)) =
      String.ofList r.2 :: tokenize (String.ofList cs) := by
  have hblank : CharClass.of ' ' = .blank := by decide
  have hparts : ∀ s ∈ (runs (' ' :: cs)).head?, Part (r.1, r.2) s := by
    intro s hs hpart
    rw [runs_cons_of_blank hblank] at hs
    obtain rfl : (.blank, [' ']) = s := Option.some.inj hs
    exact hr hpart.1
  rw [tokenize_eq, tokenize_eq, String.toList_ofList, String.toList_ofList, h.runs_append hparts,
    runs_cons_of_blank hblank, List.filter_cons_of_pos (by simp [hr]),
    List.filter_cons_of_neg (by simp), List.map_cons]

/-- A run that is not blank is its own only token. -/
theorem Runs.Proper.tokenize_eq {r : Run} (h : Proper r) (hr : r.1 ≠ .blank) :
    tokenize (String.ofList r.2) = [String.ofList r.2] := by
  have hruns : runs (r.2 ++ []) = (r.1, r.2) :: runs [] := h.runs_append (by simp [runs])
  rw [List.append_nil] at hruns
  rw [AnnotatedText.tokenize_eq, String.toList_ofList, hruns,
    List.filter_cons_of_pos (by simp [hr])]
  rfl

/-- Runs that are not blank are the tokens of what they are when joined by blanks. -/
theorem tokenize_intercalate {rs : List Run} (h : ∀ r ∈ rs, Proper r ∧ r.1 ≠ .blank) :
    tokenize (" ".intercalate (rs.map fun r => String.ofList r.2)) =
      rs.map fun r => String.ofList r.2 := by
  induction rs with
  | nil => rfl
  | cons r rest ih =>
      obtain ⟨⟨hproper, hr⟩, hrest⟩ := List.forall_mem_cons.mp h
      cases rest with
      | nil =>
          rw [List.map_singleton, String.intercalate_singleton]
          exact hproper.tokenize_eq hr
      | cons s more =>
          have hjoined : " ".intercalate ((r :: s :: more).map fun r => String.ofList r.2) =
              String.ofList (r.2 ++ ' ' ::
                (" ".intercalate ((s :: more).map fun r => String.ofList r.2)).toList) := by
            rw [← String.toList_inj, String.toList_ofList, List.map_cons, List.map_cons,
              String.intercalate_cons_cons]
            simp
          rw [hjoined, hproper.tokenize_append hr, String.ofList_toList, ih hrest]
          rfl

/-- **The tokens of a text are those of its tokens joined by blanks.** -/
theorem tokenize_intercalate_tokenize (s : String) :
    tokenize (" ".intercalate (tokenize s)) = tokenize s := by
  rw [tokenize_eq s]
  refine tokenize_intercalate fun r hr => ?_
  obtain ⟨hr, hblank⟩ := List.mem_filter.mp hr
  exact ⟨(maximal_runs s.toList).proper r hr, by simpa using hblank⟩

end AnnotatedText
