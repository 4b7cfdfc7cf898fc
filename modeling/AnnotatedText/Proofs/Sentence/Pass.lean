import AnnotatedText.Proofs.Sentence.Segmentation

/-!
# One pass over a text

The tokens of a text are found in one pass from the left as well, a character at a time: a run that is
pending either goes on with the character or is put down behind the spans found before, and a run is
begun anew unless the character is a blank. What is pending at the end of the text is put down last.

`runs` merges from the right, so the two cannot be compared character by character. What carries the
pass is that the characters pending are a proper run: the next one joins them exactly if it would
join them from the right. So what has been found and what is still to come, the tokens of the
characters pending and those not yet read, are the same before and after each character,
`Pass.HasCome.read`.

## Main results

* `Pass.HasCome.read`: what reading one character keeps.
* `Pass.spansBehind_eq`: a pass puts the spans of the tokens behind those that are there.
-/

namespace AnnotatedText

open Text Runs

/-- A run of its class goes on with one more character. -/
theorem Runs.Proper.concat {k : CharClass} {cs : List Char} (h : Proper (k, cs)) {c : Char}
    (hc : CharClass.of c = k) (hk : k.isGrouped = true) : Proper (k, cs ++ [c]) where
  ne_nil := List.append_ne_nil_of_left_ne_nil h.ne_nil [c]
  classify d hd := by
    rcases List.mem_append.mp hd with hd | hd
    · exact h.classify d hd
    · rw [List.mem_singleton.mp hd]
      exact hc
  single hsingle := by
    rw [hk] at hsingle
    cases hsingle

/-- A **pass** over a text, up to some character: the spans found so far, and the class and the
beginning of the run that may go on, if there is one. -/
structure Pass where
  found : List Span
  pending : Option (CharClass × Nat)
  deriving DecidableEq

namespace Pass

/-- Reads the character at the byte offset `pos`. -/
def read (p : Pass) (pos : Nat) (c : Char) : Pass :=
  let begun := if CharClass.of c = .blank then none else some (CharClass.of c, pos)
  match p.pending with
  | none => ⟨p.found, begun⟩
  | some (k, start) =>
    if k = CharClass.of c ∧ (CharClass.of c).isGrouped then p
    else ⟨p.found ++ [⟨start, pos⟩], begun⟩

/-- Reads characters, of which the first is at the byte offset `pos`. -/
def readAll (p : Pass) : Nat → List Char → Pass
  | _, [] => p
  | pos, c :: rest => (p.read pos c).readAll (pos + c.utf8Size) rest

/-- The spans at the end of the text, which is at the byte offset `stop`. -/
def close (p : Pass) (stop : Nat) : List Span :=
  match p.pending with
  | none => p.found
  | some (_, start) => p.found ++ [⟨start, stop⟩]

/-- Puts the spans that a pass over the text finds behind those that are there. -/
def spansBehind (spans : List Span) (text : String) : List Span :=
  (readAll ⟨spans, none⟩ 0 text.toList).close (byteLength text.toList)

/-! ### What is still to come -/

/-- The characters that are **pending** from the byte offset `start` on: none, or a proper run. -/
inductive IsPending (start : Nat) : Option (CharClass × Nat) → List Char → Prop
  | none : IsPending start none []
  | run {k : CharClass} {cs : List Char} (hk : k ≠ .blank) (hproper : Proper (k, cs)) :
      IsPending start (some (k, start)) cs

/-- The spans that are still **to come**: those of the tokens of the characters that are pending and
the others behind them. -/
def toCome (start : Nat) (held rest : List Char) : List Span :=
  (tokensFrom start (runs (held ++ rest))).map Token.span

/-- A blank in front adds nothing to what is to come. -/
theorem toCome_cons_of_blank {c : Char} (hc : CharClass.of c = .blank) (start : Nat)
    (rest : List Char) : toCome start [] (c :: rest) = toCome (start + c.utf8Size) [] rest := by
  rw [toCome, List.nil_append, runs_cons_of_blank hc, tokensFrom, if_pos rfl]
  rfl

/-- A run that parts from what is behind it comes first. -/
theorem toCome_of_parted {k : CharClass} {held rest : List Char} (hk : k ≠ .blank)
    (hproper : Proper (k, held))
    (hparts : ∀ c ∈ rest.head?, ¬ (k = CharClass.of c ∧ (CharClass.of c).isGrouped = true))
    (start : Nat) :
    toCome start held rest =
      ⟨start, start + byteLength held⟩ :: toCome (start + byteLength held) [] rest := by
  have hhead := (maximal_runs rest).fst_head?
  rw [flatMap_runs] at hhead
  have hruns : runs (held ++ rest) = (k, held) :: runs rest := by
    refine hproper.runs_append fun s hs => ?_
    -- the first run behind is of the class of the first character behind
    rw [Option.mem_def] at hs
    obtain ⟨c, hc, hclass⟩ : ∃ c, rest.head? = some c ∧ CharClass.of c = s.1 := by
      rw [hs, Option.map_some] at hhead
      exact Option.map_eq_some_iff.mp hhead.symm
    rw [Runs.Part, ← hclass]
    exact hparts c hc
  rw [toCome, hruns, tokensFrom, if_neg hk, List.map_cons, Token.span, Token.stop,
    String.toList_ofList]
  rfl

/-- A pass **has come** to the byte offset `pos`, with `spans rest` to be found in all if `rest` stands
behind: characters are pending up to there, and these spans are those that have been found and those
still to come. -/
def HasCome (p : Pass) (pos : Nat) (spans : List Char → List Span) : Prop :=
  ∃ start held, IsPending start p.pending held ∧ start + byteLength held = pos ∧
    ∀ rest, p.found ++ toCome start held rest = spans rest

/-- How far a pass has come does not depend on how the spans to be found are told. -/
theorem HasCome.congr {p : Pass} {pos : Nat} {spans spans' : List Char → List Span}
    (h : p.HasCome pos spans) (hspans : ∀ rest, spans rest = spans' rest) : p.HasCome pos spans' := by
  obtain ⟨start, held, hpending, hpos, htotal⟩ := h
  exact ⟨start, held, hpending, hpos, fun rest => (htotal rest).trans (hspans rest)⟩

/-! ### One character -/

/-- A character that is read while nothing is pending. -/
theorem hasCome_read_none (found : List Span) (pos : Nat) (c : Char) :
    (read ⟨found, none⟩ pos c).HasCome (pos + c.utf8Size)
      fun rest => found ++ toCome pos [] (c :: rest) := by
  by_cases hc : CharClass.of c = .blank
  · have hread : read ⟨found, none⟩ pos c = ⟨found, none⟩ := by simp only [read, if_pos hc]
    rw [hread]
    exact ⟨pos + c.utf8Size, [], .none, rfl,
      fun rest => congrArg (found ++ ·) (toCome_cons_of_blank hc pos rest).symm⟩
  · have hread : read ⟨found, none⟩ pos c = ⟨found, some (CharClass.of c, pos)⟩ := by
      simp only [read, if_neg hc]
    rw [hread]
    exact ⟨pos, [c], .run hc (proper_singleton c), rfl, fun _ => rfl⟩

variable {p : Pass} {pos : Nat} {spans : List Char → List Span}

/-- **Reading one character** leaves the spans as they are that are found in all. -/
theorem HasCome.read (h : p.HasCome pos spans) (c : Char) :
    (p.read pos c).HasCome (pos + c.utf8Size) fun rest => spans (c :: rest) := by
  obtain ⟨found, pending⟩ := p
  obtain ⟨start, held, hpending, rfl, hspans⟩ := h
  cases hpending with
  | none => exact (hasCome_read_none found start c).congr fun rest => hspans (c :: rest)
  | @run k _ hk hproper =>
      by_cases hjoin : k = CharClass.of c ∧ (CharClass.of c).isGrouped = true
      · have hread : Pass.read ⟨found, some (k, start)⟩ (start + byteLength held) c =
            ⟨found, some (k, start)⟩ := by simp only [Pass.read, if_pos hjoin]
        rw [hread]
        refine ⟨start, held ++ [c], .run hk (hproper.concat hjoin.1.symm (hjoin.1 ▸ hjoin.2)), ?_,
          fun rest => ?_⟩
        · rw [byteLength_append, byteLength_cons, byteLength_nil, Nat.add_zero, Nat.add_assoc]
        · have hheld : toCome start (held ++ [c]) rest = toCome start held (c :: rest) := by
            rw [toCome, toCome, List.append_assoc, List.singleton_append]
          exact (congrArg (found ++ ·) hheld).trans (hspans (c :: rest))
      · -- the run is put down, and the character is read as if nothing had been pending
        have hread : Pass.read ⟨found, some (k, start)⟩ (start + byteLength held) c =
            Pass.read ⟨found ++ [⟨start, start + byteLength held⟩], none⟩
              (start + byteLength held) c := by
          simp only [Pass.read, if_neg hjoin]
        have hparted (rest : List Char) : toCome start held (c :: rest) =
            ⟨start, start + byteLength held⟩ ::
              toCome (start + byteLength held) [] (c :: rest) := by
          refine toCome_of_parted hk hproper (fun d hd => ?_) start
          obtain rfl : c = d := Option.some.inj hd
          exact hjoin
        rw [hread]
        refine (hasCome_read_none _ _ c).congr fun rest => ?_
        rw [← hspans, hparted, List.append_assoc, List.singleton_append]

/-! ### All characters -/

/-- What is pending at the end of the text is the last to be found. -/
theorem HasCome.close (h : p.HasCome pos spans) : p.close pos = spans [] := by
  obtain ⟨found, pending⟩ := p
  obtain ⟨start, held, hpending, rfl, hspans⟩ := h
  rw [← hspans]
  cases hpending with
  | none => exact (List.append_nil found).symm
  | run hk hproper =>
      rw [Pass.close, toCome_of_parted hk hproper (by simp)]
      rfl

/-- **Reading to the end of the text** finds all spans. -/
theorem HasCome.close_readAll (h : p.HasCome pos spans) (rest : List Char) :
    (p.readAll pos rest).close (pos + byteLength rest) = spans rest := by
  induction rest generalizing p pos spans with
  | nil => exact h.close
  | cons c rest ih =>
      rw [readAll, byteLength_cons, ← Nat.add_assoc]
      exact ih (h.read c)

/-- **A pass finds the tokens**, in order, and puts their spans behind those that are there. -/
theorem spansBehind_eq (spans : List Span) (text : String) :
    spansBehind spans text = spans ++ (tokens text).map Token.span := by
  have hstart : HasCome ⟨spans, none⟩ 0 fun rest => spans ++ toCome 0 [] rest :=
    ⟨0, [], .none, rfl, fun _ => rfl⟩
  have hread := hstart.close_readAll text.toList
  rw [Nat.zero_add] at hread
  exact hread

end Pass

end AnnotatedText
