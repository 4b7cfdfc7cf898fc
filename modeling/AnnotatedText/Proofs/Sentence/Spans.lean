import AnnotatedText.Proofs.Text.Slices
import AnnotatedText.Sentence

/-!
# Spans of tokens

Each token stands in its text where its span says, so both ends of a span are boundaries of the text
and the slice between them is the token. The spans do not overlap and are in order; the stretch from
the beginning of one token to the end of the same or a later one is therefore a slice of the text as
well, with the blanks in between.

## Main results

* `slice?_of_mem_tokens`: the slice at the span of a token is the token.
* `Sentence.exists_byteSpan?`: a stretch of tokens has a span, and the text has a slice there.
-/

namespace AnnotatedText

/-- A token **stands** in a text where the length of what comes before it says. -/
def Token.StandsIn (t : Token) (cs : List Char) : Prop :=
  ∃ front rest, cs = front ++ t.text.toList ++ rest ∧ Text.byteLength front = t.start

/-- Tokens stand in the text of their runs, which begins at the offset `start`. -/
theorem exists_of_mem_tokensFrom {start : Nat} {rs : List Run} {t : Token}
    (h : t ∈ tokensFrom start rs) :
    ∃ front rest, rs.flatMap Prod.snd = front ++ t.text.toList ++ rest ∧
      start + Text.byteLength front = t.start := by
  induction rs generalizing start with
  | nil => simp [tokensFrom] at h
  | cons r rest ih =>
      obtain ⟨k, cs⟩ := r
      have hbehind (hmem : t ∈ tokensFrom (start + Text.byteLength cs) rest) :
          ∃ front more, ((k, cs) :: rest).flatMap Prod.snd = front ++ t.text.toList ++ more ∧
            start + Text.byteLength front = t.start := by
        obtain ⟨front, more, hsplit, hstart⟩ := ih hmem
        refine ⟨cs ++ front, more, ?_, ?_⟩
        · rw [List.flatMap_cons, hsplit]
          simp only [List.append_assoc]
        · rw [Text.byteLength_append]
          omega
      rw [tokensFrom] at h
      by_cases hk : k = .blank
      · rw [if_pos hk] at h
        exact hbehind h
      · rw [if_neg hk] at h
        rcases List.mem_cons.mp h with rfl | h
        · exact ⟨[], rest.flatMap Prod.snd, by simp, rfl⟩
        · exact hbehind h

/-- The tokens of a text stand in it. -/
theorem standsIn_of_mem_tokens {s : String} {t : Token} (h : t ∈ tokens s) :
    t.StandsIn s.toList := by
  obtain ⟨front, rest, hsplit, hstart⟩ := exists_of_mem_tokensFrom h
  rw [flatMap_runs] at hsplit
  exact ⟨front, rest, hsplit, by omega⟩

/-- **The slice at the span of a token is the token.** -/
theorem slice?_of_mem_tokens {s : String} {t : Token} (h : t ∈ tokens s) :
    Text.slice? s t.start t.stop = some t.text := by
  obtain ⟨front, rest, hsplit, hstart⟩ := standsIn_of_mem_tokens h
  have hslice : Text.sliceChars? s.toList t.start t.stop = some t.text.toList :=
    Text.sliceChars?_eq_some_iff.mpr ⟨front, rest, hsplit, hstart, rfl⟩
  rw [Text.slice?, hslice, Option.map_some, String.ofList_toList]

/-- No token begins before the text does. -/
theorem le_start_of_mem_tokensFrom {start : Nat} {rs : List Run} {t : Token}
    (h : t ∈ tokensFrom start rs) : start ≤ t.start := by
  obtain ⟨front, -, -, hstart⟩ := exists_of_mem_tokensFrom h
  omega

/-- A token ends before the next one begins. -/
theorem tokensFrom_sorted (start : Nat) (rs : List Run) :
    (tokensFrom start rs).Pairwise fun a b => a.stop ≤ b.start := by
  induction rs generalizing start with
  | nil => exact List.Pairwise.nil
  | cons r rest ih =>
      obtain ⟨k, cs⟩ := r
      rw [tokensFrom]
      by_cases hk : k = .blank
      · rw [if_pos hk]
        exact ih _
      · rw [if_neg hk]
        refine List.pairwise_cons.mpr ⟨fun t ht => ?_, ih _⟩
        have hle := le_start_of_mem_tokensFrom ht
        rwa [Token.stop, String.toList_ofList]

theorem Token.start_le_stop (t : Token) : t.start ≤ t.stop := Nat.le_add_right _ _

namespace Sentence

variable {text : String} {caseSensitive : Bool}

/-- A segmented sentence has as many tokens as its text. -/
theorem size_segment (text : String) (caseSensitive : Bool) :
    ((ofText text).segment caseSensitive).size = (tokens text).length := by
  rw [size, segment, List.length_map, ofText]

/-- The spans of a segmented sentence are those of the tokens. -/
theorem getElem?_spans_segment (i : Nat) :
    ((ofText text).segment caseSensitive).spans[i]? = (tokens text)[i]?.map Token.span := by
  rw [segment, List.getElem?_map, ofText]

/-- **A stretch of tokens has a span**, and the text has a slice there. -/
theorem exists_byteSpan? {first last : Nat} (h : first < last)
    (hlast : last ≤ ((ofText text).segment caseSensitive).size) :
    ∃ span surface, ((ofText text).segment caseSensitive).byteSpan? first last = some span ∧
      Text.slice? text span.start span.stop = some surface := by
  rw [size_segment] at hlast
  obtain ⟨a, ha⟩ : ∃ a, (tokens text)[first]? = some a :=
    ⟨_, List.getElem?_eq_getElem (by omega)⟩
  obtain ⟨b, hb⟩ : ∃ b, (tokens text)[last - 1]? = some b :=
    ⟨_, List.getElem?_eq_getElem (by omega)⟩
  obtain ⟨front, rest, hsplit, hstart⟩ := standsIn_of_mem_tokens (List.mem_of_getElem? ha)
  obtain ⟨front', rest', hsplit', hstart'⟩ := standsIn_of_mem_tokens (List.mem_of_getElem? hb)
  have hbegin : Text.IsBoundary text.toList a.start := by
    refine ⟨front, ?_, hstart⟩
    rw [hsplit, List.append_assoc]
    exact List.prefix_append ..
  have hend : Text.IsBoundary text.toList b.stop := by
    refine ⟨front' ++ b.text.toList, ?_, ?_⟩
    · rw [hsplit']
      exact List.prefix_append ..
    · rw [Text.byteLength_append, hstart', Token.stop]
  have hle : a.start ≤ b.stop := by
    rcases Nat.eq_or_lt_of_le (Nat.le_sub_one_of_lt h) with heq | hlt
    · obtain rfl : a = b := by simpa [heq, hb] using ha.symm
      exact a.start_le_stop
    · have hsorted := List.pairwise_iff_getElem.mp (tokensFrom_sorted 0 (runs text.toList))
      obtain ⟨hi, rfl⟩ := List.getElem?_eq_some_iff.mp ha
      obtain ⟨hj, rfl⟩ := List.getElem?_eq_some_iff.mp hb
      have hab := hsorted first (last - 1) hi hj hlt
      exact Nat.le_trans (Token.start_le_stop _) (Nat.le_trans hab (Token.start_le_stop _))
  obtain ⟨surface, hsurface⟩ := Text.exists_sliceChars? hbegin hend hle
  refine ⟨⟨a.start, b.stop⟩, String.ofList surface, ?_, ?_⟩
  · rw [byteSpan?, getElem?_spans_segment, getElem?_spans_segment, ha, hb]
    rfl
  · rw [Text.slice?, hsurface, Option.map_some]

end Sentence

end AnnotatedText
