import AnnotatedText.Proofs.Increasing
import AnnotatedText.Proofs.Sentence.Joined

/-!
# The segmentation of a text

Which stretches of a text are its tokens can be read off the text: a word that is not part of a longer
one, or a symbol, `IsTokenSpan`. This is what the runs of a text come to, as a run of words parts from
its neighbours exactly if the characters on either side are of another class. So the spans of the
tokens are the only ones that are apart, in order, and leave nothing out but blanks.

## Main results

* `runs_eq_append_cons_iff`: what stands at a run, in front of it and behind it.
* `mem_spans_iff`: the spans of the tokens are those of words and symbols.
* `isSegmentation_iff`: they are the only segmentation of the text.
* `tokens_maximal_and_local`: this, and what becomes of tokens that are cut out or joined.
-/

namespace AnnotatedText

namespace Runs

/-! ### Runs between others -/

/-- Runs are maximal if those in front of one and those behind it are and it parts from both. -/
theorem maximal_append_cons_iff {before behind : List Run} {r : Run} :
    Maximal (before ++ r :: behind) ↔
      Maximal before ∧ Proper r ∧ Maximal behind ∧ (∀ s ∈ before.getLast?, Part s r) ∧
        ∀ s ∈ behind.head?, Part r s := by
  constructor
  · rintro ⟨hproper, hparted⟩
    obtain ⟨hbefore, hrest, hjoin⟩ := List.isChain_append.mp hparted
    obtain ⟨hhead, hbehind⟩ := List.isChain_cons.mp hrest
    refine ⟨⟨fun s hs => hproper s (List.mem_append_left _ hs), hbefore⟩,
      hproper r (List.mem_append_right _ List.mem_cons_self),
      ⟨fun s hs => hproper s (List.mem_append_right _ (List.mem_cons_of_mem r hs)), hbehind⟩,
      fun s hs => hjoin s hs r rfl, hhead⟩
  · rintro ⟨hbefore, hr, hbehind, hleft, hright⟩
    refine ⟨fun s hs => ?_, ?_⟩
    · rcases List.mem_append.mp hs with hs | hs
      · exact hbefore.proper s hs
      · rcases List.mem_cons.mp hs with rfl | hs
        · exact hr
        · exact hbehind.proper s hs
    · refine List.isChain_append.mpr
        ⟨hbefore.parted, List.isChain_cons.mpr ⟨hright, hbehind.parted⟩, fun s hs t ht => ?_⟩
      obtain rfl : r = t := Option.some.inj ht
      exact hleft s hs

/-- The class of the first run is that of the first character. -/
theorem Maximal.fst_head? {rs : List Run} (h : Maximal rs) :
    rs.head?.map Prod.fst = (rs.flatMap Prod.snd).head?.map CharClass.of := by
  cases rs with
  | nil => rfl
  | cons r rest =>
      have hr := h.proper r List.mem_cons_self
      obtain ⟨c, cs, hcs⟩ := List.exists_cons_of_ne_nil hr.ne_nil
      have hc := hr.classify c (by rw [hcs]; exact List.mem_cons_self)
      rw [List.flatMap_cons, hcs, List.cons_append, List.head?_cons, List.head?_cons,
        Option.map_some, Option.map_some, hc]

/-- The class of the last run is that of the last character. -/
theorem Maximal.fst_getLast? {rs : List Run} (h : Maximal rs) :
    rs.getLast?.map Prod.fst = (rs.flatMap Prod.snd).getLast?.map CharClass.of := by
  rcases List.eq_nil_or_concat rs with rfl | ⟨rest, r, rfl⟩
  · rfl
  · rw [List.concat_eq_append] at h ⊢
    have hr := h.proper r (List.mem_append_right _ List.mem_cons_self)
    obtain ⟨cs, c, hcs⟩ := (List.eq_nil_or_concat r.2).resolve_left hr.ne_nil
    have hc := hr.classify c (by rw [hcs]; simp)
    rw [List.flatMap_append, List.flatMap_singleton, hcs, List.concat_eq_append,
      ← List.append_assoc, List.getLast?_concat, List.getLast?_concat, Option.map_some,
      Option.map_some, hc]

/-- **What stands at a run**: its characters are the part of the text between what the runs in front
of it and those behind it make up, and no character next to it could join it. -/
theorem runs_eq_append_cons_iff {cs front mid rest : List Char} {k : CharClass} :
    runs cs = runs front ++ (k, mid) :: runs rest ↔
      cs = front ++ mid ++ rest ∧ Proper (k, mid) ∧
        (∀ c ∈ front.getLast?, ¬ (CharClass.of c = k ∧ k.isGrouped = true)) ∧
        ∀ c ∈ rest.head?, ¬ (CharClass.of c = k ∧ k.isGrouped = true) := by
  have hleft : (∀ s ∈ (runs front).getLast?, Part s (k, mid)) ↔
      ∀ c ∈ front.getLast?, ¬ (CharClass.of c = k ∧ k.isGrouped = true) := by
    have hlast := (maximal_runs front).fst_getLast?
    rw [flatMap_runs] at hlast
    cases hs : (runs front).getLast? <;> cases hc : front.getLast? <;> simp_all [Part]
  have hright : (∀ s ∈ (runs rest).head?, Part (k, mid) s) ↔
      ∀ c ∈ rest.head?, ¬ (CharClass.of c = k ∧ k.isGrouped = true) := by
    have hhead := (maximal_runs rest).fst_head?
    rw [flatMap_runs] at hhead
    cases hs : (runs rest).head? with
    | none => cases hc : rest.head? <;> simp_all
    | some s =>
        cases hc : rest.head? with
        | none => simp_all
        | some c =>
            have hclass : s.1 = CharClass.of c := by simpa [hs, hc] using hhead
            simp only [Option.mem_some, forall_eq', Part, hclass]
            constructor
            · rintro hpart ⟨rfl, hgrouped⟩
              exact hpart ⟨rfl, hgrouped⟩
            · rintro hjoin ⟨rfl, hgrouped⟩
              exact hjoin ⟨rfl, hgrouped⟩
  rw [runs_eq_iff, maximal_append_cons_iff, hleft, hright, List.flatMap_append, List.flatMap_cons,
    flatMap_runs, flatMap_runs, ← List.append_assoc, eq_comm (a := cs)]
  simp only [maximal_runs, true_and]
  exact and_comm

/-- The runs in front of one and those behind it are those of what they make up. -/
theorem eq_runs_of_runs_eq {cs : List Char} {before behind : List Run} {r : Run}
    (h : runs cs = before ++ r :: behind) :
    runs cs = runs (before.flatMap Prod.snd) ++ (r.1, r.2) :: runs (behind.flatMap Prod.snd) := by
  obtain ⟨hbefore, -, hbehind, -, -⟩ := maximal_append_cons_iff.mp (h ▸ maximal_runs cs)
  rw [hbefore.runs_eq, hbehind.runs_eq, h]

/-- Each character stands in a run. -/
theorem exists_run_of_append {rs : List Run} {front rest : List Char} {c : Char}
    (h : rs.flatMap Prod.snd = front ++ c :: rest) :
    ∃ before r behind inner, rs = before ++ r :: behind ∧ c ∈ r.2 ∧
      front = before.flatMap Prod.snd ++ inner ∧
      Text.byteLength inner < Text.byteLength r.2 := by
  induction rs generalizing front with
  | nil => simp at h
  | cons r more ih =>
      rw [List.flatMap_cons] at h
      rcases List.append_eq_append_iff.mp h with ⟨inner, rfl, hmore⟩ | ⟨inner, hr, hc⟩
      · obtain ⟨before, s, behind, inner, rfl, hs, rfl, hlt⟩ := ih hmore
        exact ⟨r :: before, s, behind, inner, rfl, hs, by simp, hlt⟩
      · cases inner with
        | nil =>
            obtain ⟨before, s, behind, inner, rfl, hs, hfront, hlt⟩ := @ih [] hc.symm
            refine ⟨r :: before, s, behind, inner, rfl, hs, ?_, hlt⟩
            rw [List.flatMap_cons, List.append_assoc, ← hfront, hr, List.append_nil, List.append_nil]
        | cons d inner =>
            obtain ⟨rfl, -⟩ := List.cons.inj hc
            refine ⟨[], r, more, front, rfl, by simp [hr], rfl, ?_⟩
            have hpos := Text.utf8Size_pos c
            rw [hr, Text.byteLength_append, Text.byteLength_cons]
            omega

end Runs

/-! ### Spans of tokens -/

open Text Runs

/-- The spans in a text that are **those of tokens**: they cover a word, of letters or of numerals,
that no neighbour belongs to, or a character that is neither a blank nor part of words. -/
inductive IsTokenSpan (cs : List Char) : Span → Prop
  | word {front word rest : List Char} {k : CharClass} (hk : k = .letter ∨ k = .numeral)
      (hcs : cs = front ++ word ++ rest) (hne : word ≠ []) (hword : ∀ c ∈ word, CharClass.of c = k)
      (hleft : ∀ c ∈ front.getLast?, CharClass.of c ≠ k)
      (hright : ∀ c ∈ rest.head?, CharClass.of c ≠ k) :
      IsTokenSpan cs ⟨byteLength front, byteLength front + byteLength word⟩
  | symbol {front rest : List Char} {c : Char} (hcs : cs = front ++ [c] ++ rest)
      (hc : CharClass.of c = .other) :
      IsTokenSpan cs ⟨byteLength front, byteLength front + byteLength [c]⟩

/-- **The span of a token** is that of a run that is not blank. -/
theorem isTokenSpan_iff {cs : List Char} {span : Span} :
    IsTokenSpan cs span ↔ ∃ front mid rest k, k ≠ .blank ∧
      runs cs = runs front ++ (k, mid) :: runs rest ∧
      span = ⟨byteLength front, byteLength front + byteLength mid⟩ := by
  constructor
  · intro h
    cases h with
    | @word front word rest k hk hcs hne hword hleft hright =>
        refine ⟨front, word, rest, k, ?_, runs_eq_append_cons_iff.mpr ⟨hcs, ⟨hne, hword, ?_⟩,
          fun c hc hjoin => hleft c hc hjoin.1, fun c hc hjoin => hright c hc hjoin.1⟩, rfl⟩
        · rcases hk with rfl | rfl <;> simp
        · rcases hk with rfl | rfl <;> simp [CharClass.isGrouped]
    | @symbol front rest c hcs hc =>
        refine ⟨front, [c], rest, .other, by simp, runs_eq_append_cons_iff.mpr
          ⟨hcs, hc ▸ proper_singleton c, ?_, ?_⟩, rfl⟩ <;> simp [CharClass.isGrouped]
  · rintro ⟨front, mid, rest, k, hk, hruns, rfl⟩
    obtain ⟨hcs, hproper, hleft, hright⟩ := runs_eq_append_cons_iff.mp hruns
    have hword (hk : k = .letter ∨ k = .numeral) :
        IsTokenSpan cs ⟨byteLength front, byteLength front + byteLength mid⟩ := by
      have hgrouped : k.isGrouped = true := by rcases hk with rfl | rfl <;> rfl
      exact .word hk hcs hproper.ne_nil hproper.classify
        (fun c hc hclass => hleft c hc ⟨hclass, hgrouped⟩)
        (fun c hc hclass => hright c hc ⟨hclass, hgrouped⟩)
    cases k with
    | blank => exact absurd rfl hk
    | letter => exact hword (.inl rfl)
    | numeral => exact hword (.inr rfl)
    | other =>
        obtain ⟨c, rfl⟩ := hproper.single rfl
        exact .symbol hcs (hproper.classify c List.mem_cons_self)

/-- **The spans of the tokens are those of words and symbols.** -/
theorem mem_spans_iff {s : String} {span : Span} :
    span ∈ (tokens s).map Token.span ↔ IsTokenSpan s.toList span := by
  rw [isTokenSpan_iff, List.mem_map]
  constructor
  · rintro ⟨t, ht, rfl⟩
    obtain ⟨i, hi⟩ := List.mem_iff_getElem?.mp ht
    obtain ⟨before, r, behind, hruns, -, hr, rfl⟩ := exists_run_of_getElem? hi
    refine ⟨before.flatMap Prod.snd, r.2, behind.flatMap Prod.snd, r.1, hr,
      eq_runs_of_runs_eq hruns, ?_⟩
    simp [Token.span, Token.stop]
  · rintro ⟨front, mid, rest, k, hk, hruns, rfl⟩
    refine ⟨⟨byteLength front, String.ofList mid⟩, ?_, by simp [Token.span, Token.stop]⟩
    rw [tokens, hruns, tokensFrom_append, flatMap_runs, Nat.zero_add, tokensFrom, if_neg hk]
    exact List.mem_append_right _ List.mem_cons_self

namespace IsTokenSpan

variable {cs : List Char} {span : Span}

/-- The span covers some characters of the text that are not blank, between two boundaries. -/
theorem exists_chars (h : IsTokenSpan cs span) :
    ∃ front mid rest, cs = front ++ mid ++ rest ∧ mid ≠ [] ∧
      (∀ c ∈ mid, CharClass.of c ≠ .blank) ∧
      span = ⟨byteLength front, byteLength front + byteLength mid⟩ := by
  obtain ⟨front, mid, rest, k, hk, hruns, rfl⟩ := isTokenSpan_iff.mp h
  obtain ⟨hcs, hproper, -, -⟩ := runs_eq_append_cons_iff.mp hruns
  exact ⟨front, mid, rest, hcs, hproper.ne_nil, fun c hc => hproper.classify c hc ▸ hk, rfl⟩

/-- A token is not empty. -/
theorem start_lt_stop (h : IsTokenSpan cs span) : span.start < span.stop := by
  obtain ⟨front, mid, rest, -, hne, -, rfl⟩ := h.exists_chars
  have hpos : byteLength mid ≠ 0 := mt byteLength_eq_zero_iff.mp hne
  show byteLength front < byteLength front + byteLength mid
  omega

/-- A token begins and ends between characters. -/
theorem isBoundary (h : IsTokenSpan cs span) :
    IsBoundary cs span.start ∧ IsBoundary cs span.stop := by
  obtain ⟨front, mid, rest, hcs, -, -, rfl⟩ := h.exists_chars
  refine ⟨⟨front, ?_, rfl⟩, ⟨front ++ mid, ?_, byteLength_append front mid⟩⟩
  · rw [hcs, List.append_assoc]
    exact List.prefix_append ..
  · rw [hcs]
    exact List.prefix_append ..

/-- No blank stands within the span. -/
theorem ne_blank (h : IsTokenSpan cs span) {front rest : List Char} {c : Char}
    (hcs : cs = front ++ c :: rest) (hstart : span.start ≤ byteLength front)
    (hstop : byteLength front < span.stop) : CharClass.of c ≠ .blank := by
  obtain ⟨before, mid, behind, hsplit, -, hmid, rfl⟩ := h.exists_chars
  -- what stands in front of the character is as long as `before`, and no more than `mid` longer
  have hbefore : before <+: cs := by
    rw [hsplit, List.append_assoc]
    exact List.prefix_append ..
  obtain ⟨inner, rfl⟩ := prefix_of_byteLength_le hbefore (hcs ▸ List.prefix_append ..) hstart
  rw [hsplit, List.append_assoc, List.append_assoc] at hcs
  have hrest := List.append_cancel_left hcs
  rw [byteLength_append] at hstop
  have hinner : inner <+: mid ++ behind := hrest ▸ List.prefix_append ..
  obtain ⟨more, rfl⟩ := prefix_of_byteLength_le hinner (List.prefix_append ..)
    (Nat.le_of_lt (Nat.lt_of_add_lt_add_left hstop))
  rw [List.append_assoc] at hrest
  cases more with
  | nil => simp at hstop
  | cons d more =>
      obtain ⟨rfl, -⟩ := List.cons.inj (List.append_cancel_left hrest)
      exact hmid d (by simp)

end IsTokenSpan

/-! ### Segmentations -/

/-- Spans are a **segmentation** of a text if they are those of tokens, in order and apart, and leave
no character out but the blanks. -/
structure IsSegmentation (cs : List Char) (spans : List Span) : Prop where
  token : ∀ span ∈ spans, IsTokenSpan cs span
  nonempty : ∀ span ∈ spans, span.start < span.stop
  boundaries : ∀ span ∈ spans, IsBoundary cs span.start ∧ IsBoundary cs span.stop
  increasing : spans.Pairwise fun a b => a.start < b.start
  apart : spans.Pairwise fun a b => a.stop ≤ b.start
  covers : ∀ front c rest, cs = front ++ c :: rest →
    (CharClass.of c ≠ .blank ↔
      ∃ span ∈ spans, span.start ≤ byteLength front ∧ byteLength front < span.stop)

/-- The spans of the tokens are apart. -/
theorem spans_apart (s : String) :
    ((tokens s).map Token.span).Pairwise fun a b => a.stop ≤ b.start :=
  List.pairwise_map.mpr (tokensFrom_sorted 0 (runs s.toList))

/-- **The spans of the tokens are a segmentation.** -/
theorem isSegmentation_tokens (s : String) :
    IsSegmentation s.toList ((tokens s).map Token.span) where
  token _ h := mem_spans_iff.mp h
  nonempty _ h := (mem_spans_iff.mp h).start_lt_stop
  boundaries _ h := (mem_spans_iff.mp h).isBoundary
  increasing := List.pairwise_map.mpr (tokens_increasing s)
  apart := spans_apart s
  covers front c rest hs := by
    constructor
    · intro hc
      obtain ⟨before, r, behind, inner, hruns, hmem, rfl, hlt⟩ :=
        exists_run_of_append ((flatMap_runs s.toList).trans hs)
      have hr : CharClass.of c = r.1 := classify_of_mem_runs (by rw [hruns]; simp) hmem
      refine ⟨_, mem_spans_iff.mpr (isTokenSpan_iff.mpr ⟨before.flatMap Prod.snd, r.2,
        behind.flatMap Prod.snd, r.1, hr ▸ hc, eq_runs_of_runs_eq hruns, rfl⟩), ?_, ?_⟩
      · rw [byteLength_append]
        exact Nat.le_add_right ..
      · rw [byteLength_append]
        exact Nat.add_lt_add_left hlt _
    · rintro ⟨span, hspan, hstart, hstop⟩
      exact (mem_spans_iff.mp hspan).ne_blank hs hstart hstop

/-- Of spans that are apart, only one covers an offset. -/
theorem eq_of_apart {spans : List Span} (h : spans.Pairwise fun a b => a.stop ≤ b.start)
    {a b : Span} (ha : a ∈ spans) (hb : b ∈ spans) {n : Nat} (han : a.start ≤ n ∧ n < a.stop)
    (hbn : b.start ≤ n ∧ n < b.stop) : a = b := by
  induction spans with
  | nil => cases ha
  | cons span rest ih =>
      obtain ⟨hfirst, hrest⟩ := List.pairwise_cons.mp h
      rcases List.mem_cons.mp ha with rfl | ha' <;> rcases List.mem_cons.mp hb with rfl | hb'
      · rfl
      · have := hfirst b hb'
        omega
      · have := hfirst a ha'
        omega
      · exact ih hrest ha' hb'

/-- **The spans of the tokens are the only segmentation of a text.** -/
theorem isSegmentation_iff {s : String} {spans : List Span} :
    IsSegmentation s.toList spans ↔ spans = (tokens s).map Token.span := by
  constructor
  · intro h
    have hmem : ∀ span, span ∈ spans ↔ span ∈ (tokens s).map Token.span := by
      refine fun span => ⟨fun hspan => mem_spans_iff.mpr (h.token span hspan), fun hspan => ?_⟩
      -- the first character of the token is covered by a span, which can be no other
      obtain ⟨front, mid, rest, hs, hne, hmid, rfl⟩ := (mem_spans_iff.mp hspan).exists_chars
      obtain ⟨c, cs, rfl⟩ := List.exists_cons_of_ne_nil hne
      have hcovered := (h.covers front c (cs ++ rest) (by simpa using hs)).mp
        (hmid c List.mem_cons_self)
      obtain ⟨other, hother, hcover⟩ := hcovered
      have hpos := (mem_spans_iff.mp hspan).start_lt_stop
      rw [eq_of_apart (spans_apart s) hspan (mem_spans_iff.mpr (h.token other hother))
        ⟨Nat.le_refl _, hpos⟩ hcover]
      exact hother
    exact eq_of_increasing Span.start h.increasing (isSegmentation_tokens s).increasing hmem
  · rintro rfl
    exact isSegmentation_tokens s

/-- **The tokens of a text are its segmentation**, and depend on nothing around them: the text that is
cut out from the beginning of a token to the end of the same or a later one has the tokens in between,
and so have the tokens joined by blanks. -/
theorem tokens_maximal_and_local (s : String) :
    (∀ spans, IsSegmentation s.toList spans ↔ spans = (tokens s).map Token.span) ∧
      (∀ t ∈ tokens s, slice? s t.start t.stop = some t.text) ∧
      (∀ first last, first < last → last ≤ (tokens s).length →
        ∃ span surface,
          (∀ caseSensitive, ((Sentence.ofText s).segment caseSensitive).byteSpan? first last =
            some span) ∧
          slice? s span.start span.stop = some surface ∧
          (tokens surface).map (Token.shift span.start) =
            ((tokens s).drop first).take (last - first)) ∧
      tokenize (" ".intercalate (tokenize s)) = tokenize s := by
  refine ⟨fun spans => isSegmentation_iff, fun t ht => slice?_of_mem_tokens ht,
    fun first last hlt hlast => ?_, tokenize_intercalate_tokenize s⟩
  have hsize : last ≤ ((Sentence.ofText s).segment true).size := by rwa [Sentence.size_segment]
  obtain ⟨span, surface, hspan, hsurface⟩ := Sentence.exists_byteSpan? hlt hsize
  obtain ⟨a, b, ha, hb, rfl⟩ := Sentence.byteSpan?_segment_eq_some_iff.mp hspan
  exact ⟨⟨a.start, b.stop⟩, surface,
    fun _ => Sentence.byteSpan?_segment_eq_some_iff.mpr ⟨a, b, ha, hb, rfl⟩, hsurface,
    (tokens_of_stretch hlt ha hb hsurface).symm⟩

/-- A hyphen, a word and a number, cut out of a text where a letter follows the number. -/
theorem tokens_cut_out_of_text :
    ∃ span surface,
      (∀ caseSensitive,
        ((Sentence.ofText "CAS-Editor 2x").segment caseSensitive).byteSpan? 1 4 = some span) ∧
      slice? "CAS-Editor 2x" span.start span.stop = some surface ∧
      (tokens surface).map (Token.shift span.start) = [⟨3, "-"⟩, ⟨4, "Editor"⟩, ⟨11, "2"⟩] := by
  have hsize : 4 ≤ (tokens "CAS-Editor 2x").length := by decide +kernel
  have htokens : ((tokens "CAS-Editor 2x").drop 1).take (4 - 1) =
      [⟨3, "-"⟩, ⟨4, "Editor"⟩, ⟨11, "2"⟩] := by decide +kernel
  obtain ⟨span, surface, hspan, hsurface, hcut⟩ :=
    (tokens_maximal_and_local "CAS-Editor 2x").2.2.1 1 4 (by decide) hsize
  exact ⟨span, surface, hspan, hsurface, hcut.trans htokens⟩

end AnnotatedText
