import AnnotatedText.Proofs.Sentence.Spans
import Mathlib.Data.List.Chain

/-!
# Stretches of tokens

What the tokenizer makes of a text depends on the characters alone and not on what stands around
them: a text that is cut out from the beginning of one token to the end of a later one has the tokens
in between and no others, at the same distances.

The reason is that runs can be told from within. The runs of a text are **maximal**, `Runs.Maximal`:
each is a run by itself, and no two neighbours could be one. Conversely runs that are maximal are
the runs of the text that they make up (`Runs.Maximal.runs_eq`), and some that stand next to each
other in a maximal sequence are maximal again. Tokens are runs, so the text from one to the other is
made up of such runs.

## Main results

* `Runs.runs_eq_iff`: the runs of a text are the only maximal ones that make it up.
* `tokens_of_stretch`: what is cut out between tokens has these tokens.
* `Sentence.tokenize_of_byteSpan?`, `Sentence.byteSpan?_of_stretch`: they are all of its tokens and
  cover it.
-/

namespace AnnotatedText

namespace Runs

/-- A run **parts** from the one behind it if no run can reach over both. -/
def Part (r s : Run) : Prop := ¬ (r.1 = s.1 ∧ s.1.isGrouped = true)

/-- A **proper** run: some characters of its class, and only one unless the class is grouped. -/
structure Proper (r : Run) : Prop where
  ne_nil : r.2 ≠ []
  classify : ∀ c ∈ r.2, CharClass.of c = r.1
  single : r.1.isGrouped = false → ∃ c, r.2 = [c]

/-- Runs are **maximal** if they are proper and each parts from the next. -/
structure Maximal (rs : List Run) : Prop where
  proper : ∀ r ∈ rs, Proper r
  parted : rs.IsChain Part

theorem proper_singleton (c : Char) : Proper (CharClass.of c, [c]) where
  ne_nil := List.cons_ne_nil c []
  classify _ hc := by rw [List.mem_singleton.mp hc]
  single _ := ⟨c, rfl⟩

/-- A character more joins a run of its class. -/
theorem Proper.cons {k : CharClass} {cs : List Char} (h : Proper (k, cs)) {c : Char}
    (hc : CharClass.of c = k) (hk : k.isGrouped = true) : Proper (k, c :: cs) where
  ne_nil := List.cons_ne_nil c cs
  classify d hd := by
    rcases List.mem_cons.mp hd with rfl | hd
    · exact hc
    · exact h.classify d hd
  single hsingle := by
    rw [hk] at hsingle
    cases hsingle

/-- A run parts from the next one by its class, whatever its characters are. -/
theorem Maximal.cons_iff {r : Run} {rs : List Run} :
    Maximal (r :: rs) ↔ Proper r ∧ (∀ s ∈ rs.head?, Part r s) ∧ Maximal rs := by
  constructor
  · rintro ⟨hproper, hparted⟩
    obtain ⟨hr, hrs⟩ := List.forall_mem_cons.mp hproper
    obtain ⟨hhead, htail⟩ := List.isChain_cons.mp hparted
    exact ⟨hr, hhead, hrs, htail⟩
  · rintro ⟨hr, hhead, hrs, htail⟩
    exact ⟨List.forall_mem_cons.mpr ⟨hr, hrs⟩, List.isChain_cons.mpr ⟨hhead, htail⟩⟩

theorem maximal_nil : Maximal [] where
  proper _ hr := absurd hr List.not_mem_nil
  parted := List.IsChain.nil

/-- **The runs of a text are maximal.** -/
theorem maximal_runs (cs : List Char) : Maximal (runs cs) := by
  induction cs with
  | nil => exact maximal_nil
  | cons c rest ih =>
      rw [runs]
      cases hruns : runs rest with
      | nil => exact Maximal.cons_iff.mpr ⟨proper_singleton c, by simp, maximal_nil⟩
      | cons r more =>
          obtain ⟨k, cs⟩ := r
          rw [hruns] at ih
          obtain ⟨hproper, hhead, hmore⟩ := Maximal.cons_iff.mp ih
          by_cases hjoin : CharClass.of c = k ∧ k.isGrouped = true
          · simp only [if_pos hjoin]
            exact Maximal.cons_iff.mpr ⟨hproper.cons hjoin.1 hjoin.2, hhead, hmore⟩
          · simp only [if_neg hjoin]
            refine Maximal.cons_iff.mpr ⟨proper_singleton c, ?_, ih⟩
            intro s hs
            obtain rfl : (k, cs) = s := Option.some.inj hs
            exact hjoin

/-- A proper run in front of a text that it parts from is the first run. -/
theorem Proper.runs_append {k : CharClass} {cs rest : List Char} (h : Proper (k, cs))
    (hparts : ∀ s ∈ (runs rest).head?, Part (k, cs) s) :
    runs (cs ++ rest) = (k, cs) :: runs rest := by
  induction cs with
  | nil => exact absurd rfl h.ne_nil
  | cons c cs ih =>
      have hc : CharClass.of c = k := h.classify c List.mem_cons_self
      cases cs with
      | nil =>
          rw [List.singleton_append, runs, hc]
          cases hruns : runs rest with
          | nil => rfl
          | cons s more => exact if_neg (hparts s (by rw [hruns]; rfl))
      | cons d cs =>
          -- a run of several characters is grouped, so what is left of it is a proper run
          have hgrouped : k.isGrouped = true := by
            by_contra hnot
            obtain ⟨e, he⟩ := h.single (by simpa using hnot)
            simp at he
          have hproper : Proper (k, d :: cs) := by
            refine ⟨List.cons_ne_nil d cs, fun e he => h.classify e (List.mem_cons_of_mem c he), ?_⟩
            intro hsingle
            rw [hgrouped] at hsingle
            cases hsingle
          rw [List.cons_append, runs, ih hproper hparts]
          exact if_pos ⟨hc, hgrouped⟩

/-- **Maximal runs are the runs of the text that they make up.** -/
theorem Maximal.runs_eq {rs : List Run} (h : Maximal rs) : runs (rs.flatMap Prod.snd) = rs := by
  induction rs with
  | nil => rfl
  | cons r rest ih =>
      obtain ⟨hproper, hhead, hrest⟩ := Maximal.cons_iff.mp h
      rw [List.flatMap_cons, hproper.runs_append (by rwa [ih hrest]), ih hrest]

/-- **The runs of a text are the only maximal ones that make it up.** -/
theorem runs_eq_iff {cs : List Char} {rs : List Run} :
    runs cs = rs ↔ Maximal rs ∧ rs.flatMap Prod.snd = cs := by
  constructor
  · rintro rfl
    exact ⟨maximal_runs cs, flatMap_runs cs⟩
  · rintro ⟨hmaximal, rfl⟩
    exact hmaximal.runs_eq

/-- Runs that stand next to each other in a maximal sequence are maximal. -/
theorem Maximal.infix {before rs behind : List Run} (h : Maximal (before ++ rs ++ behind)) :
    Maximal rs where
  proper r hr := h.proper r (List.mem_append_left _ (List.mem_append_right _ hr))
  parted := h.parted.left_of_append.right_of_append

end Runs

/-! ### Tokens among runs -/

/-- The token that stands `distance` bytes further on. -/
def Token.shift (distance : Nat) (t : Token) : Token := ⟨distance + t.start, t.text⟩

/-- A token that is shifted ends further on by the distance. -/
theorem Token.stop_shift (distance : Nat) (t : Token) :
    (t.shift distance).stop = distance + t.stop :=
  Nat.add_assoc ..

/-- Tokens are at the same distances wherever their runs begin. -/
theorem tokensFrom_shift (distance start : Nat) (rs : List Run) :
    tokensFrom (distance + start) rs = (tokensFrom start rs).map (Token.shift distance) := by
  induction rs generalizing start with
  | nil => rfl
  | cons r rest ih =>
      obtain ⟨k, cs⟩ := r
      rw [tokensFrom, tokensFrom, Nat.add_assoc, ih]
      by_cases hk : k = .blank
      · rw [if_pos hk, if_pos hk]
      · rw [if_neg hk, if_neg hk, List.map_cons]
        rfl

/-- The tokens of a text are those of a beginning of its runs and those of the rest. -/
theorem tokensFrom_append (start : Nat) (rs ss : List Run) :
    tokensFrom start (rs ++ ss) =
      tokensFrom start rs ++ tokensFrom (start + Text.byteLength (rs.flatMap Prod.snd)) ss := by
  induction rs generalizing start with
  | nil => rfl
  | cons r rest ih =>
      obtain ⟨k, cs⟩ := r
      rw [List.cons_append, tokensFrom, tokensFrom, ih, List.flatMap_cons, Text.byteLength_append,
        Nat.add_assoc]
      by_cases hk : k = .blank
      · rw [if_pos hk, if_pos hk]
      · rw [if_neg hk, if_neg hk, List.cons_append]

/-- **A token is a run** that is not blank: as many tokens as its place says are in front of it. -/
theorem exists_run_of_getElem? {start i : Nat} {rs : List Run} {t : Token}
    (h : (tokensFrom start rs)[i]? = some t) :
    ∃ before r behind, rs = before ++ r :: behind ∧ (tokensFrom start before).length = i ∧
      r.1 ≠ .blank ∧
      t = ⟨start + Text.byteLength (before.flatMap Prod.snd), String.ofList r.2⟩ := by
  induction rs generalizing start i with
  | nil => simp [tokensFrom] at h
  | cons r rest ih =>
      obtain ⟨k, cs⟩ := r
      rw [tokensFrom] at h
      by_cases hk : k = .blank
      · rw [if_pos hk] at h
        obtain ⟨before, r, behind, rfl, hlength, hr, ht⟩ := ih h
        refine ⟨(k, cs) :: before, r, behind, rfl, ?_, hr, ?_⟩
        · rwa [tokensFrom, if_pos hk]
        · rw [ht, List.flatMap_cons, Text.byteLength_append, Nat.add_assoc]
      · rw [if_neg hk] at h
        cases i with
        | zero =>
            obtain rfl : ⟨start, String.ofList cs⟩ = t := Option.some.inj h
            exact ⟨[], (k, cs), rest, rfl, rfl, hk, rfl⟩
        | succ i =>
            obtain ⟨before, r, behind, rfl, hlength, hr, ht⟩ := ih h
            refine ⟨(k, cs) :: before, r, behind, rfl, ?_, hr, ?_⟩
            · rw [tokensFrom, if_neg hk, List.length_cons, hlength]
            · rw [ht, List.flatMap_cons, Text.byteLength_append, Nat.add_assoc]

/-- Tokens are not empty, so each begins before the next one. -/
theorem tokens_increasing (s : String) : (tokens s).Pairwise fun a b => a.start < b.start := by
  refine (tokensFrom_sorted 0 (runs s.toList)).imp_of_mem ?_
  intro a b ha _ hab
  obtain ⟨i, hi⟩ := List.mem_iff_getElem?.mp ha
  obtain ⟨before, r, behind, hruns, -, -, rfl⟩ := exists_run_of_getElem? hi
  have hr : r ∈ runs s.toList := by
    rw [hruns]
    exact List.mem_append_right before List.mem_cons_self
  have hpos : Text.byteLength r.2 ≠ 0 := fun hzero =>
    run_ne_nil hr (Text.byteLength_eq_zero_iff.mp hzero)
  rw [Token.stop, String.toList_ofList] at hab
  omega

/-- From one token to another stand runs that have the tokens from the one to the other. -/
theorem exists_runs_of_stretch {rs : List Run} {first last : Nat} (h : first < last) {a b : Token}
    (ha : (tokensFrom 0 rs)[first]? = some a) (hb : (tokensFrom 0 rs)[last - 1]? = some b) :
    ∃ before mid behind, rs = before ++ mid ++ behind ∧
      Text.byteLength (before.flatMap Prod.snd) = a.start ∧
      a.start + Text.byteLength (mid.flatMap Prod.snd) = b.stop ∧
      ((tokensFrom 0 rs).drop first).take (last - first) = tokensFrom a.start mid := by
  -- the runs up to the last token, of which there are `last` tokens
  obtain ⟨front, r, behind, rfl, hlength, hr, rfl⟩ := exists_run_of_getElem? hb
  have hsplit : tokensFrom 0 (front ++ r :: behind) = tokensFrom 0 (front ++ [r]) ++
      tokensFrom (0 + Text.byteLength ((front ++ [r]).flatMap Prod.snd)) behind := by
    rw [← tokensFrom_append, List.append_assoc, List.singleton_append]
  have hfront : (tokensFrom 0 (front ++ [r])).length = last := by
    rw [tokensFrom_append, List.length_append, hlength, tokensFrom, if_neg hr, tokensFrom,
      List.length_singleton]
    omega
  -- in these, the runs from the first token on
  rw [hsplit, List.getElem?_append_left (by omega)] at ha
  obtain ⟨before, s, mid, hruns, hbefore, -, rfl⟩ := exists_run_of_getElem? ha
  refine ⟨before, s :: mid, behind, ?_, ?_, ?_, ?_⟩
  · rw [← hruns, List.append_assoc, List.singleton_append]
  · exact (Nat.zero_add _).symm
  · have hbytes : Text.byteLength ((front ++ [r]).flatMap Prod.snd) =
        Text.byteLength ((before ++ s :: mid).flatMap Prod.snd) := by rw [hruns]
    rw [List.flatMap_append, List.flatMap_append, Text.byteLength_append, Text.byteLength_append,
      List.flatMap_singleton] at hbytes
    simp only [Token.stop, String.toList_ofList]
    omega
  · have htake : (tokensFrom 0 (front ++ r :: behind)).take last = tokensFrom 0 (front ++ [r]) := by
      rw [hsplit, ← hfront, List.take_left]
    rw [← List.drop_take, htake, hruns, tokensFrom_append, ← hbefore, List.drop_left]

/-- **What is cut out between tokens has these tokens**, at the same distances. -/
theorem tokens_of_stretch {text surface : String} {first last : Nat} (h : first < last) {a b : Token}
    (ha : (tokens text)[first]? = some a) (hb : (tokens text)[last - 1]? = some b)
    (hsurface : Text.slice? text a.start b.stop = some surface) :
    ((tokens text).drop first).take (last - first) = (tokens surface).map (Token.shift a.start) := by
  obtain ⟨before, mid, behind, hruns, hstart, hstop, hstretch⟩ := exists_runs_of_stretch h ha hb
  have hmaximal : Runs.Maximal mid :=
    Runs.Maximal.infix (hruns ▸ Runs.maximal_runs text.toList)
  have htext : text.toList = before.flatMap Prod.snd ++ mid.flatMap Prod.snd ++
      behind.flatMap Prod.snd := by
    rw [← List.flatMap_append, ← List.flatMap_append, ← hruns, flatMap_runs]
  have hslice : Text.sliceChars? text.toList a.start b.stop = some (mid.flatMap Prod.snd) := by
    rw [htext, ← hstop, ← hstart]
    exact Text.sliceChars?_append _ _ _
  have hchars : surface.toList = mid.flatMap Prod.snd := by
    rw [Text.slice?, hslice] at hsurface
    obtain rfl : String.ofList (mid.flatMap Prod.snd) = surface := Option.some.inj hsurface
    rw [String.toList_ofList]
  rw [tokens, hstretch, tokens, hchars, hmaximal.runs_eq, ← tokensFrom_shift, Nat.add_zero]

namespace Sentence

variable {text surface : String} {caseSensitive : Bool} {first last : Nat} {span : Span}

/-- A stretch has the span from the beginning of its first token to the end of its last one. -/
theorem byteSpan?_segment_eq_some_iff :
    ((ofText text).segment caseSensitive).byteSpan? first last = some span ↔
      ∃ a b, (tokens text)[first]? = some a ∧ (tokens text)[last - 1]? = some b ∧
        span = ⟨a.start, b.stop⟩ := by
  rw [byteSpan?, getElem?_spans_segment, getElem?_spans_segment]
  constructor
  · intro h
    cases ha : (tokens text)[first]? with
    | none => simp [ha] at h
    | some a =>
        cases hb : (tokens text)[last - 1]? with
        | none => simp [ha, hb] at h
        | some b =>
            rw [ha, hb] at h
            exact ⟨a, b, rfl, rfl, (Option.some.inj h).symm⟩
  · rintro ⟨a, b, ha, hb, rfl⟩
    rw [ha, hb]
    rfl

/-- **The text of a stretch has its tokens.** -/
theorem tokenize_of_byteSpan? (h : first < last)
    (hspan : ((ofText text).segment caseSensitive).byteSpan? first last = some span)
    (hsurface : Text.slice? text span.start span.stop = some surface) :
    tokenize surface = ((tokenize text).drop first).take (last - first) := by
  obtain ⟨a, b, ha, hb, rfl⟩ := byteSpan?_segment_eq_some_iff.mp hspan
  rw [tokenize, tokenize, ← List.map_drop, ← List.map_take, tokens_of_stretch h ha hb hsurface,
    List.map_map]
  rfl

/-- They cover the whole text. -/
theorem byteSpan?_of_stretch (h : first < last)
    (hspan : ((ofText text).segment caseSensitive).byteSpan? first last = some span)
    (hsurface : Text.slice? text span.start span.stop = some surface) :
    ((ofText surface).segment caseSensitive).byteSpan? 0 (last - first) =
      some ⟨0, Text.byteLength surface.toList⟩ := by
  obtain ⟨a, b, ha, hb, rfl⟩ := byteSpan?_segment_eq_some_iff.mp hspan
  have hstretch := tokens_of_stretch h ha hb hsurface
  have hget {i : Nat} {t : Token} (hi : first + i < last) (ht : (tokens text)[first + i]? = some t) :
      ∃ t', (tokens surface)[i]? = some t' ∧ t'.shift a.start = t := by
    rw [← Option.map_eq_some_iff, ← List.getElem?_map, ← hstretch,
      List.getElem?_take_of_lt (by omega), List.getElem?_drop]
    exact ht
  obtain ⟨a', ha', hshift⟩ := hget (i := 0) h ha
  obtain ⟨b', hb', rfl⟩ := hget (i := last - first - 1) (t := b) (by omega)
    (by rwa [show first + (last - first - 1) = last - 1 by omega])
  refine byteSpan?_segment_eq_some_iff.mpr ⟨a', b', ha', hb', ?_⟩
  have hstart : a.start + a'.start = a.start := congrArg Token.start hshift
  obtain ⟨chars, hslice, rfl⟩ := Option.map_eq_some_iff.mp hsurface
  obtain ⟨-, -, -, -, hlength⟩ := Text.sliceChars?_eq_some_iff.mp hslice
  have hstop : a.start + Text.byteLength chars = a.start + b'.stop :=
    hlength.trans (Token.stop_shift a.start b')
  rw [String.toList_ofList, Span.mk.injEq]
  omega

end Sentence

end AnnotatedText
