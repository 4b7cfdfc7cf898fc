import AnnotatedText.Proofs.Sentence.Buffer
import AnnotatedText.Proofs.Sentence.Pass

/-!
# Sentences after any operations

A text may be put into a buffer, compiled and cleared away in any order and any number of times: a
text may be compiled twice, with and without regard to case, or never, and nothing need be compiled
at all. `token?` takes what is held in lower case before what stands in the text, so what is held
must be of this text and of the way in which it was compiled last.

There are only two kinds of states, whatever came before, `SentenceBuffer.Steady`: either nothing has
been looked for since the text was put in, and then there are no spans and nothing is held; or the
buffer is the one of its text, for the way in which it was compiled last. No operation needs to know
how the state before it came about, `SentenceBuffer.exists_perform`. What has been said of a buffer
of a text in `Buffer` and of spans in `Spans` is then all that is needed.

## Main results

* `SentenceBuffer.exists_performAll`: what a buffer holds after any operations, and what it shows.
* `SentenceBuffer.consistent_after_any_operations`: spans, held texts, tokens and stretches fit the
  text at every time.
-/

namespace AnnotatedText

namespace Sentence

/-- What is done with a sentence. -/
inductive Operation where
  | set (text : String)
  | compile (caseSensitive : Bool)
  | clear
  deriving DecidableEq

/-- The sentence after an operation. -/
def perform (s : Sentence) : Operation → Sentence
  | .set text => ofText text
  | .compile caseSensitive => s.segment caseSensitive
  | .clear => empty

/-- The sentence after several operations. -/
def performAll (s : Sentence) : List Operation → Sentence
  | [] => s
  | op :: rest => (s.perform op).performAll rest

/-- Whether case matters where an operation compiles. -/
def Operation.caseSensitive? : Operation → Option Bool
  | .compile caseSensitive => some caseSensitive
  | .set _ | .clear => none

/-- Whether case mattered when a sentence was compiled last. -/
def lastCompiled? : List Operation → Option Bool
  | [] => none
  | op :: rest => (lastCompiled? rest).or op.caseSensitive?

end Sentence

namespace SentenceBuffer

open Sentence (Operation lastCompiled?)

/-- The buffer after an operation; undefined if an access is out of range. -/
def perform (b : SentenceBuffer) : Operation → Option SentenceBuffer
  | .set text => some (b.set text)
  | .compile caseSensitive => b.compile caseSensitive
  | .clear => some b.clear

/-- The buffer after several operations. -/
def performAll (b : SentenceBuffer) : List Operation → Option SentenceBuffer
  | [] => some b
  | op :: rest => (b.perform op).bind fun b => b.performAll rest

/-! ### States -/

/-- What a buffer is like in every state, if it was last compiled in the given way: its tokens have
not been looked for, or it is the buffer of its text. -/
inductive Steady (last? : Option Bool) : SentenceBuffer → Prop
  | unread (text : String) : Steady last? ⟨text, [], []⟩
  | compiled {caseSensitive : Bool} (h : last? = some caseSensitive) (text : String) :
      Steady last? (ofText caseSensitive text)

/-- **What one operation does**, to whatever buffer: no access is out of range, and it leaves a steady
buffer, which shows what the operation makes of the sentence that was shown before. -/
theorem exists_perform (b : SentenceBuffer) (last? : Option Bool) (op : Operation) :
    ∃ b', b.perform op = some b' ∧ Steady (op.caseSensitive?.or last?) b' ∧
      b'.view = b.view.perform op := by
  cases op with
  | set text =>
      have hset : b.set text = ⟨text, [], []⟩ := by rw [set, clear, String.empty_append]
      exact ⟨_, rfl, hset ▸ .unread text, by rw [hset]; rfl⟩
  | compile caseSensitive =>
      exact ⟨_, b.compile_eq caseSensitive, .compiled rfl b.input, view_ofText⟩
  | clear => exact ⟨_, rfl, .unread "", rfl⟩

/-- **What a buffer is like after any operations**, and what it shows. All accesses on the way are in
range. -/
theorem exists_performAll {b : SentenceBuffer} {last? : Option Bool} (h : Steady last? b)
    (ops : List Operation) :
    ∃ b', b.performAll ops = some b' ∧ Steady ((lastCompiled? ops).or last?) b' ∧
      b'.view = b.view.performAll ops := by
  induction ops generalizing b last? with
  | nil => exact ⟨b, rfl, h, rfl⟩
  | cons op rest ih =>
      obtain ⟨next, hnext, hsteady, hview⟩ := exists_perform b last? op
      obtain ⟨b', hrest, hb', hshown⟩ := ih hsteady
      refine ⟨b', ?_, ?_, ?_⟩
      · rw [performAll, hnext]
        exact hrest
      · rwa [lastCompiled?, Option.or_assoc]
      · rw [hshown, hview]
        rfl

/-! ### Consistency -/

/-- A buffer is **consistent** with the way in which it was compiled last: its spans, if there are any,
are those of the tokens of its text; if anything is held, it is held for each of them; a token is what
stands at its span, in lower case unless case mattered; and a stretch of tokens reaches from the
beginning of its first to the end of its last one, between two boundaries of the text. -/
structure IsConsistent (last? : Option Bool) (b : SentenceBuffer) : Prop where
  spans_eq : b.spans = [] ∨ b.spans = (tokens b.input).map Token.span
  length_folded : b.folded = [] ∨ b.folded.length = b.spans.length
  token? : ∀ i < b.spans.length, ∃ caseSensitive span surface,
    last? = some caseSensitive ∧ b.spans[i]? = some span ∧ b.textAt? span = some surface ∧
      b.token? i = some (foldCase caseSensitive surface)
  byteSpan? : ∀ first last, first < last → last ≤ b.spans.length →
    ∃ a z, b.spans[first]? = some a ∧ b.spans[last - 1]? = some z ∧
      b.view.byteSpan? first last = some ⟨a.start, z.stop⟩ ∧ a.start ≤ z.stop ∧
      Text.IsBoundary b.input.toList a.start ∧ Text.IsBoundary b.input.toList z.stop

/-- Without spans there is nothing to read. -/
theorem isConsistent_unread (last? : Option Bool) (text : String) :
    IsConsistent last? ⟨text, [], []⟩ where
  spans_eq := .inl rfl
  length_folded := .inl rfl
  token? _ hi := absurd hi (Nat.not_lt_zero _)
  byteSpan? _ _ hlt hle := absurd (Nat.lt_of_lt_of_le hlt hle) (Nat.not_lt_zero _)

variable {caseSensitive : Bool} {text : String}

/-- The spans of a buffer of a text are those of its tokens. -/
theorem getElem?_spans_ofText (i : Nat) :
    (ofText caseSensitive text).spans[i]? = (tokens text)[i]?.map Token.span :=
  List.getElem?_map

/-- **A token of a buffer of a text** is what stands at its span, in lower case unless case matters. -/
theorem textAt?_and_token?_ofText {i : Nat} {t : Token} (ht : (tokens text)[i]? = some t) :
    (ofText caseSensitive text).textAt? t.span = some t.text ∧
      (ofText caseSensitive text).token? i = some (foldCase caseSensitive t.text) := by
  constructor
  · exact slice?_of_mem_tokens (List.mem_of_getElem? ht)
  · rw [token?_ofText, Sentence.segment, Sentence.ofText, List.getElem?_map, ht, Option.map_some]

/-- **A stretch of tokens of a text** lies between two of its boundaries. -/
theorem isBoundary_of_byteSpan? {first last : Nat} (h : first < last)
    (hlast : last ≤ ((Sentence.ofText text).segment caseSensitive).size) :
    ∃ a z, (tokens text)[first]? = some a ∧ (tokens text)[last - 1]? = some z ∧
      ((Sentence.ofText text).segment caseSensitive).byteSpan? first last =
        some ⟨a.start, z.stop⟩ ∧
      a.start ≤ z.stop ∧ Text.IsBoundary text.toList a.start ∧
      Text.IsBoundary text.toList z.stop := by
  obtain ⟨span, surface, hspan, hsurface⟩ := Sentence.exists_byteSpan? h hlast
  obtain ⟨a, z, ha, hz, rfl⟩ := Sentence.byteSpan?_segment_eq_some_iff.mp hspan
  exact ⟨a, z, ha, hz, hspan, Text.exists_slice?_iff.mp ⟨surface, hsurface⟩⟩

/-- A buffer that is compiled for a text is consistent. -/
theorem isConsistent_ofText (caseSensitive : Bool) (text : String) :
    IsConsistent (some caseSensitive) (ofText caseSensitive text) where
  spans_eq := .inr rfl
  length_folded := by
    cases caseSensitive with
    | true => exact .inl rfl
    | false => exact .inr ((List.length_map ..).trans (List.length_map ..).symm)
  token? i hi := by
    obtain ⟨span, hspan⟩ : ∃ span, (ofText caseSensitive text).spans[i]? = some span :=
      ⟨_, List.getElem?_eq_getElem hi⟩
    obtain ⟨t, ht, rfl⟩ := Option.map_eq_some_iff.mp ((getElem?_spans_ofText i).symm.trans hspan)
    obtain ⟨htext, htoken⟩ := textAt?_and_token?_ofText ht
    exact ⟨caseSensitive, t.span, t.text, rfl, hspan, htext, htoken⟩
  byteSpan? first last h hlast := by
    obtain ⟨a, z, ha, hz, hspan, hbetween⟩ := isBoundary_of_byteSpan? h hlast
    refine ⟨a.span, z.span, ?_, ?_, ?_, hbetween⟩
    · rw [getElem?_spans_ofText, ha, Option.map_some]
    · rw [getElem?_spans_ofText, hz, Option.map_some]
    · rw [view_ofText]
      exact hspan

/-- **In every state a buffer is consistent.** -/
theorem Steady.isConsistent {last? : Option Bool} {b : SentenceBuffer} (h : Steady last? b) :
    b.IsConsistent last? := by
  cases h with
  | unread text => exact isConsistent_unread last? text
  | @compiled caseSensitive h text =>
      rw [h]
      exact isConsistent_ofText caseSensitive text

/-- **After any operations a buffer is consistent**: no access has been out of range, it shows the
sentence that has gone through the same operations, and its spans, what it holds, its tokens and its
stretches fit its text and the way in which it was compiled last. If it is compiled now, its text
stays, and its spans are those of the tokens, which one pass over the text finds. -/
theorem consistent_after_any_operations (ops : List Operation) :
    ∃ b, empty.performAll ops = some b ∧ b.view = Sentence.empty.performAll ops ∧
      b.IsConsistent (lastCompiled? ops) ∧
      ∀ caseSensitive, ∃ c, b.compile caseSensitive = some c ∧ c.input = b.input ∧
        c.spans = (tokens b.input).map Token.span ∧
        c.spans = Pass.spansBehind [] b.input ∧
        c.IsConsistent (some caseSensitive) := by
  obtain ⟨b, hb, hsteady, hview⟩ := exists_performAll (.unread "" : Steady none empty) ops
  rw [Option.or_none] at hsteady
  refine ⟨b, hb, hview, hsteady.isConsistent, fun caseSensitive => ?_⟩
  refine ⟨_, b.compile_eq caseSensitive, rfl, rfl, ?_, isConsistent_ofText caseSensitive b.input⟩
  rw [Pass.spansBehind_eq, List.nil_append]
  rfl

/-- What was held in lower case is gone once the same text is compiled with regard to case. -/
example : (empty.performAll [.set "Jörn Kottmann", .compile false, .compile true]).bind
    (·.token? 0) = some "Jörn" := by
  decide +kernel

end SentenceBuffer

end AnnotatedText
