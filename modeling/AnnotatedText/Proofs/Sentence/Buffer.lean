import AnnotatedText.Proofs.Sentence.Spans

/-!
# Sentences in a buffer

Texts are put into a buffer one after the other. A text is put in and its tokens are looked for in
two steps, so there are states between texts, and each of the three parts of the buffer has to be
emptied before it is filled again. Lower-cased texts are held only where case is not to matter;
otherwise the text of a token is read from the buffer at its span.

Nothing of an earlier text stays: what is compiled is a buffer of the text that is in it then,
`SentenceBuffer.compile_eq`. A buffer of a text shows the sentence of the text, whether the form under
which a token is looked up is held or read, and all of its accesses are in range.

## Main results

* `SentenceBuffer.compile_eq`: compiling depends on the text alone, and never reads out of range.
* `SentenceBuffer.view_ofText`: a buffer of a text shows its sentence.
-/

namespace AnnotatedText

/-- Room for the texts of one sentence after another. -/
structure SentenceBuffer where
  input : String
  spans : List Span
  folded : List String
  deriving DecidableEq

namespace SentenceBuffer

/-- The buffer as it is made. -/
def empty : SentenceBuffer := ⟨"", [], []⟩

/-- Empties all parts. -/
def clear (b : SentenceBuffer) : SentenceBuffer :=
  { b with input := "", spans := [], folded := [] }

/-- Puts a text in. Its tokens are not looked for yet. -/
def set (b : SentenceBuffer) (text : String) : SentenceBuffer :=
  { b.clear with input := b.clear.input ++ text }

/-- The text at a span; undefined where the text has no slice. -/
def textAt? (b : SentenceBuffer) (span : Span) : Option String :=
  Text.slice? b.input span.start span.stop

/-- Looks for the tokens of the text that is in the buffer. -/
def compile (b : SentenceBuffer) (caseSensitive : Bool) : Option SentenceBuffer :=
  let emptied := { b with spans := [], folded := [] }
  let found := { emptied with spans := emptied.spans ++ (tokens b.input).map Token.span }
  if caseSensitive then some found
  else do
    let lowered ← found.spans.mapM fun span => (found.textAt? span).map Text.lowered
    return { found with folded := found.folded ++ lowered }

/-- The form under which a token is looked up: the lower-cased text if it is held, and else the text
at the span. -/
def token? (b : SentenceBuffer) (i : Nat) : Option String :=
  match b.folded[i]? with
  | some lowered => some lowered
  | none => b.spans[i]?.bind b.textAt?

/-- The sentence that a buffer **shows**. -/
def view (b : SentenceBuffer) : Sentence :=
  ⟨b.input, b.spans, (List.range b.spans.length).map fun i => (b.token? i).getD ""⟩

/-- The buffer of a text whose tokens were looked for. -/
def ofText (caseSensitive : Bool) (text : String) : SentenceBuffer where
  input := text
  spans := (tokens text).map Token.span
  folded := if caseSensitive then [] else (tokens text).map fun t => Text.lowered t.text

theorem ofText_empty (caseSensitive : Bool) : ofText caseSensitive "" = empty := by
  cases caseSensitive <;> rfl

/-- Tokens that have their slices are read at their spans. -/
theorem mapM_lowered {b : SentenceBuffer} {ts : List Token}
    (h : ∀ t ∈ ts, Text.slice? b.input t.start t.stop = some t.text) :
    (ts.map Token.span).mapM (fun span => (b.textAt? span).map Text.lowered) =
      some (ts.map fun t => Text.lowered t.text) := by
  induction ts with
  | nil => rfl
  | cons t rest ih =>
      obtain ⟨ht, hrest⟩ := List.forall_mem_cons.mp h
      have hread : b.textAt? t.span = some t.text := ht
      rw [List.map_cons, List.mapM_cons, hread, ih hrest]
      rfl

/-- **Compiling depends on the text alone**: neither the tokens of an earlier text nor those of an
earlier look at this one make a difference. Every span has a slice. -/
theorem compile_eq (b : SentenceBuffer) (caseSensitive : Bool) :
    b.compile caseSensitive = some (ofText caseSensitive b.input) := by
  cases caseSensitive with
  | true => rfl
  | false =>
      rw [compile]
      simp only [List.nil_append, Bool.false_eq_true, if_false]
      rw [mapM_lowered fun _ ht => slice?_of_mem_tokens ht]
      rfl

/-- A text that is put in and compiled has the buffer for itself. -/
theorem compile_set (b : SentenceBuffer) (text : String) (caseSensitive : Bool) :
    (b.set text).compile caseSensitive = some (ofText caseSensitive text) := by
  rw [compile_eq, set, clear, String.empty_append]

variable {caseSensitive : Bool} {text : String}

/-- There is a span for each form under which a token is looked up. -/
theorem length_spans_ofText :
    (ofText caseSensitive text).spans.length =
      ((Sentence.ofText text).segment caseSensitive).keys.length := by
  simp [ofText, Sentence.segment, Sentence.ofText]

/-- **The form under which a token is looked up**, held or read. -/
theorem token?_ofText (i : Nat) :
    (ofText caseSensitive text).token? i =
      ((Sentence.ofText text).segment caseSensitive).keys[i]? := by
  rw [Sentence.segment, List.getElem?_map, Sentence.ofText]
  cases ht : (tokens text)[i]? with
  | none => cases caseSensitive <;> simp [token?, ofText, ht]
  | some t =>
      have hslice := slice?_of_mem_tokens (List.mem_of_getElem? ht)
      cases caseSensitive <;> simp [token?, ofText, ht, textAt?, Token.span, hslice, foldCase]

/-- **A buffer of a text shows its sentence.** -/
theorem view_ofText :
    (ofText caseSensitive text).view = (Sentence.ofText text).segment caseSensitive := by
  have hkeys : ((List.range (ofText caseSensitive text).spans.length).map fun i =>
      ((ofText caseSensitive text).token? i).getD "") =
        ((Sentence.ofText text).segment caseSensitive).keys := by
    refine List.ext_getElem ?_ fun i _ hi => ?_
    · rw [List.length_map, List.length_range, length_spans_ofText]
    · rw [List.getElem_map, List.getElem_range, token?_ofText, List.getElem?_eq_getElem hi,
        Option.getD_some]
  rw [view, hkeys]
  rfl

end SentenceBuffer

end AnnotatedText
