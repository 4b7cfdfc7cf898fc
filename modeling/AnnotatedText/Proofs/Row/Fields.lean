import AnnotatedText.Proofs.Text.Encoding
import AnnotatedText.Proofs.Text.Parts
import AnnotatedText.Row.Quoted

/-!
# What the reader takes for fields

For a delimiter of ASCII that is neither the quote nor a line end, two kinds of records are read as
one expects. A record without quotes is cut at every delimiter, and a record of quoted fields is
read back whatever the fields hold.

Either kind ends at the end of the row or at a line end, and this is all that is asked of what
stands behind it: the reader does not look at it. A row without quotes that holds carriage returns
is therefore read only in part (`fields_of_unquoted`): those in front are skipped, and the record is
at its end where another one follows.

## Main results

* `Row.fields_of_unquoted`, `Row.fields_encloseAll`
-/

namespace AnnotatedText

namespace Row

/-- A delimiter that **separates** fields is a character of ASCII, and neither the quote nor a line
end. -/
structure Separates (delimiter : UInt8) : Prop where
  ascii : delimiter < 0x80
  ne_quote : delimiter ≠ quoteByte
  not_terminator : isTerminator delimiter = false

/-- The character of such a delimiter ends no line. -/
theorem Separates.mark_ne {delimiter : UInt8} (h : Separates delimiter) :
    mark delimiter ≠ '\r' ∧ mark delimiter ≠ '\n' := by
  have hencoding : String.utf8EncodeChar (mark delimiter) = [delimiter] :=
    Text.utf8EncodeChar_ofNat h.ascii
  have hfree {c : Char} {b : UInt8} (hc : String.utf8EncodeChar c = [b])
      (hb : isTerminator b = true) : mark delimiter ≠ c := by
    rintro rfl
    have heq : delimiter = b := List.singleton_inj.mp (hencoding.symm.trans hc)
    exact absurd hb (by rw [← heq, h.not_terminator]; decide)
  exact ⟨hfree (b := 0x0D) (by decide) (by decide), hfree (b := 0x0A) (by decide) (by decide)⟩

/-- No record goes on with these bytes: there are none, or a line end is the first of them. -/
def Ends (tail : Bytes) : Prop := ∀ b ∈ tail.head?, isTerminator b = true

theorem ends_nil : Ends [] := by simp [Ends]

variable {delimiter : UInt8} {tail : Bytes}

/-- Bytes that are put in front one after the other are the beginning of the first field. -/
theorem foldr_prepend_cons (front field : Bytes) (fields : List Bytes) :
    front.foldr prepend (field :: fields) = (front ++ field) :: fields := by
  induction front with
  | nil => rfl
  | cons b front ih => rw [List.foldr_cons, ih, prepend, List.cons_append]

/-- A field that has begun is the last one where the record ends. -/
theorem fieldsFrom_of_ends (h : Separates delimiter) (hends : Ends tail) {state : State}
    (hstate : state = .fieldStart ∨ state = .inField ∨ state = .afterQuote) :
    fieldsFrom delimiter state tail = [[]] := by
  cases tail with
  | nil => rcases hstate with rfl | rfl | rfl <;> rfl
  | cons b rest =>
      have hb : isTerminator b = true := hends b rfl
      have hquote : b ≠ quoteByte := by
        rintro rfl
        exact absurd hb (by decide)
      have hdelimiter : b ≠ delimiter := by
        rintro rfl
        exact absurd hb (by rw [h.not_terminator]; decide)
      rcases hstate with rfl | rfl | rfl <;> simp [fieldsFrom, step, plainStep, hb, hquote, hdelimiter]

/-! ### Records without quotes -/

/-- Bytes that mean nothing else belong to the field. -/
theorem fieldsFrom_append_of_plain {field : Bytes}
    (h : ∀ b ∈ field, b ≠ delimiter ∧ isTerminator b = false) (rest : Bytes) :
    fieldsFrom delimiter .inField (field ++ rest) =
      field.foldr prepend (fieldsFrom delimiter .inField rest) := by
  induction field with
  | nil => rfl
  | cons b field ih =>
      obtain ⟨⟨hdelimiter, hend⟩, hfield⟩ := List.forall_mem_cons.mp h
      simp [fieldsFrom, step, plainStep, hdelimiter, hend, ih hfield]

/-- A field that does not begin with a quote is read as if it had begun before. -/
theorem fieldsFrom_fieldStart {bytes : Bytes} (h : ∀ b ∈ bytes.head?, b ≠ quoteByte) :
    fieldsFrom delimiter .fieldStart bytes = fieldsFrom delimiter .inField bytes := by
  cases bytes with
  | nil => rfl
  | cons b rest => simp [fieldsFrom, step, h b rfl]

/-- So is a record that begins neither with a quote nor with a line end. -/
theorem fieldsFrom_recordStart {bytes : Bytes} (hne : bytes ≠ [])
    (h : ∀ b ∈ bytes.head?, b ≠ quoteByte ∧ isTerminator b = false) :
    fieldsFrom delimiter .recordStart bytes = fieldsFrom delimiter .inField bytes := by
  cases bytes with
  | nil => exact absurd rfl hne
  | cons b rest =>
      obtain ⟨hquote, hend⟩ := h b rfl
      simp [fieldsFrom, step, hquote, hend]

/-- The byte of a special character occurs in the encoding of no other one. -/
theorem ne_of_mem_utf8EncodeChar {c : Char} {b special : UInt8} (hspecial : special < 0x80)
    (hc : c ≠ mark special) (hb : b ∈ String.utf8EncodeChar c) : b ≠ special := by
  rintro rfl
  exact hc (Text.eq_of_mem_utf8EncodeChar hspecial hb)

/-- Only the characters that end a row have bytes that end one. -/
theorem not_isTerminator_of_mem_utf8EncodeChar {c : Char} {b : UInt8} (hcr : c ≠ '\r')
    (hlf : c ≠ '\n') (hb : b ∈ String.utf8EncodeChar c) : isTerminator b = false := by
  have hfirst : b ≠ 0x0D := ne_of_mem_utf8EncodeChar (by decide) hcr hb
  have hsecond : b ≠ 0x0A := ne_of_mem_utf8EncodeChar (by decide) hlf hb
  simp [isTerminator, hfirst, hsecond]

/-- A character has at least one byte. -/
theorem exists_utf8EncodeChar (c : Char) : ∃ b bs, String.utf8EncodeChar c = b :: bs := by
  refine List.exists_cons_of_ne_nil fun h => ?_
  have hlen := String.length_utf8EncodeChar c
  rw [h, List.length_nil] at hlen
  exact absurd hlen.symm (Nat.ne_of_gt c.utf8Size_pos)

/-- The first byte of an encoding, with anything behind it, is the first one of a character. -/
theorem mem_head?_encodeChars_append {c : Char} {cs : List Char} {b : UInt8}
    (hb : b ∈ (Text.encodeChars (c :: cs) ++ tail).head?) : b ∈ String.utf8EncodeChar c := by
  obtain ⟨a, as, hencoding⟩ := exists_utf8EncodeChar c
  rw [Text.encodeChars_cons, hencoding] at hb
  rw [hencoding]
  exact List.mem_cons.mpr (.inl (Option.some.inj hb).symm)

/-- What is put in front of the first part is put in front of its encoding. -/
theorem map_encodeChars_prependToFirst (c : Char) {parts : List (List Char)} (hne : parts ≠ []) :
    (Text.prependToFirst c parts).map Text.encodeChars =
      (String.utf8EncodeChar c).foldr prepend (parts.map Text.encodeChars) := by
  cases parts with
  | nil => exact absurd rfl hne
  | cons part parts => simp [Text.prependToFirst, foldr_prepend_cons]

/-- **A text without quotes and line ends is cut at every delimiter.** -/
theorem fieldsFrom_encodeChars (h : Separates delimiter) (hends : Ends tail) {cs : List Char}
    (hquote : '"' ∉ cs) (hcr : '\r' ∉ cs) (hlf : '\n' ∉ cs) :
    fieldsFrom delimiter .inField (Text.encodeChars cs ++ tail) =
      (Text.splitAll (mark delimiter) cs).map Text.encodeChars := by
  induction cs with
  | nil => exact fieldsFrom_of_ends h hends (.inr (.inl rfl))
  | cons c cs ih =>
      obtain ⟨-, hquote⟩ := List.ne_and_not_mem_of_not_mem_cons hquote
      obtain ⟨hcr', hcr⟩ := List.ne_and_not_mem_of_not_mem_cons hcr
      obtain ⟨hlf', hlf⟩ := List.ne_and_not_mem_of_not_mem_cons hlf
      rw [Text.encodeChars_cons, List.append_assoc, Text.splitAll]
      split
      · rename_i hc
        -- behind a delimiter a quote would open a field, but there is none
        have hnext : fieldsFrom delimiter .fieldStart (Text.encodeChars cs ++ tail) =
            fieldsFrom delimiter .inField (Text.encodeChars cs ++ tail) := by
          cases cs with
          | nil =>
              exact (fieldsFrom_of_ends h hends (.inl rfl)).trans
                (fieldsFrom_of_ends h hends (.inr (.inl rfl))).symm
          | cons next cs =>
              refine fieldsFrom_fieldStart fun b hb => ?_
              exact ne_of_mem_utf8EncodeChar (by decide)
                (Ne.symm (List.ne_of_not_mem_cons hquote)) (mem_head?_encodeChars_append hb)
        rw [hc, mark, Text.utf8EncodeChar_ofNat h.ascii]
        simp [fieldsFrom, step, plainStep, hnext, ih hquote hcr hlf, mark]
      · rename_i hc
        rw [fieldsFrom_append_of_plain fun b hb => ⟨ne_of_mem_utf8EncodeChar h.ascii hc hb,
            not_isTerminator_of_mem_utf8EncodeChar (Ne.symm hcr') (Ne.symm hlf') hb⟩,
          ih hquote hcr hlf, map_encodeChars_prependToFirst _ (Text.splitAll_ne_nil _ _)]

/-- Line ends in front of a record are skipped. -/
theorem fieldsFrom_append_of_terminators {front : List Char} (h : ∀ c ∈ front, c = '\r')
    (rest : Bytes) :
    fieldsFrom delimiter .recordStart (Text.encodeChars front ++ rest) =
      fieldsFrom delimiter .recordStart rest := by
  induction front with
  | nil => rfl
  | cons c front ih =>
      obtain ⟨rfl, hfront⟩ := List.forall_mem_cons.mp h
      exact ih hfront

/-- A text ends a record if a carriage return is its first character. -/
theorem ends_encodeChars {back : List Char} (h : ∀ c ∈ back.head?, c = '\r') :
    Ends (Text.encodeChars back) := by
  cases back with
  | nil => exact ends_nil
  | cons c back =>
      obtain rfl := h c rfl
      intro b hb
      obtain rfl := Option.some.inj hb
      rfl

/-- **A row without quotes is read up to a carriage return.** Those that stand in front of the
record are skipped, one behind it ends it, and the text from there on belongs to no field. -/
theorem fields_of_unquoted (h : Separates delimiter) {front record back : List Char}
    (hmark : (front ++ record ++ back).head? ≠ some '\ufeff') (hquote : '"' ∉ record)
    (hlf : '\n' ∉ record) (hfront : ∀ c ∈ front, c = '\r') (hne : record ≠ []) (hcr : '\r' ∉ record)
    (hback : ∀ c ∈ back.head?, c = '\r') :
    fields delimiter (String.ofList (front ++ record ++ back)) =
      (Text.splitAll (mark delimiter) record).map String.ofList := by
  have hrecord : fieldsFrom delimiter .recordStart
      (Text.encodeChars record ++ Text.encodeChars back) =
        fieldsFrom delimiter .inField (Text.encodeChars record ++ Text.encodeChars back) := by
    cases record with
    | nil => exact absurd rfl hne
    | cons c record =>
        refine fieldsFrom_recordStart ?_ fun b hb => ?_
        · obtain ⟨b, bs, hencoding⟩ := exists_utf8EncodeChar c
          simp [hencoding]
        · have hb := mem_head?_encodeChars_append hb
          exact ⟨ne_of_mem_utf8EncodeChar (by decide) (Ne.symm (List.ne_of_not_mem_cons hquote)) hb,
            not_isTerminator_of_mem_utf8EncodeChar (Ne.symm (List.ne_of_not_mem_cons hcr))
              (Ne.symm (List.ne_of_not_mem_cons hlf)) hb⟩
  rw [fields, byteFields, Text.encode, String.toList_ofList,
    Text.dropByteOrderMark_encodeChars hmark, List.append_assoc, Text.encodeChars_append,
    fieldsFrom_append_of_terminators hfront, Text.encodeChars_append, hrecord,
    fieldsFrom_encodeChars h (ends_encodeChars hback) hquote hcr hlf, List.map_map]
  exact List.map_congr_left fun part _ => Text.decodeLossy_encodeChars part

/-! ### Records of quoted fields -/

/-- **A record of quoted fields is read back**, whatever the fields hold and whatever stands behind
the record. -/
theorem fieldsFrom_quoteRow (h : Separates delimiter) (hends : Ends tail) {fields : List Bytes}
    (hne : fields ≠ []) {state : State} (hstate : state = .recordStart ∨ state = .fieldStart) :
    fieldsFrom delimiter state (quoteRow delimiter fields ++ tail) = fields := by
  induction fields generalizing state with
  | nil => exact absurd rfl hne
  | cons field rest ih =>
      -- whichever of the two states it is, the quote opens a field
      have hopen (behind : Bytes) : fieldsFrom delimiter state (quoteField field ++ behind) =
          field.foldr prepend (fieldsFrom delimiter .afterQuote behind) := by
        rw [← fieldsFrom_quoted, quoteField, List.cons_append, List.cons_append, List.append_assoc,
          List.singleton_append]
        rcases hstate with rfl | rfl <;> rfl
      cases rest with
      | nil =>
          rw [quoteRow, hopen, fieldsFrom_of_ends h hends (.inr (.inr rfl)), foldr_prepend_cons,
            List.append_nil]
      | cons next rest =>
          have hnext : fieldsFrom delimiter .afterQuote
              (delimiter :: (quoteRow delimiter (next :: rest) ++ tail)) =
                [] :: next :: rest := by
            have hrest := ih (List.cons_ne_nil _ _) (.inr rfl)
            simp [fieldsFrom, step, plainStep, h.ne_quote, hrest]
          have hrow : quoteRow delimiter (field :: next :: rest) =
              quoteField field ++ delimiter :: quoteRow delimiter (next :: rest) := rfl
          rw [hrow, List.append_assoc, List.cons_append, hopen, hnext, foldr_prepend_cons,
            List.append_nil]

/-! ### The text of quoted fields -/

/-- Quotes are doubled one by one. -/
@[simp] theorem doubleQuotes_append (field rest : Bytes) :
    doubleQuotes (field ++ rest) = doubleQuotes field ++ doubleQuotes rest := by
  induction field with
  | nil => rfl
  | cons b field ih =>
      rw [List.cons_append, doubleQuotes, doubleQuotes, ih]
      split
      · rfl
      · rfl

/-- Where there is no quote, nothing is doubled. -/
theorem doubleQuotes_of_ne {field : Bytes} (h : ∀ b ∈ field, b ≠ quoteByte) :
    doubleQuotes field = field := by
  induction field with
  | nil => rfl
  | cons b field ih =>
      obtain ⟨hb, hfield⟩ := List.forall_mem_cons.mp h
      rw [doubleQuotes, if_neg hb, ih hfield]

/-- An enclosed text is encoded as the quoted encoding. -/
theorem encodeChars_enclose (cs : List Char) :
    Text.encodeChars (enclose cs) = quoteField (Text.encodeChars cs) := by
  have hquote : String.utf8EncodeChar '"' = [quoteByte] := by decide
  have hdouble : Text.encodeChars (cs.flatMap fun c => if c = '"' then ['"', '"'] else [c]) =
      doubleQuotes (Text.encodeChars cs) := by
    induction cs with
    | nil => rfl
    | cons c cs ih =>
        rw [List.flatMap_cons, Text.encodeChars_append, ih, Text.encodeChars_cons,
          doubleQuotes_append]
        split
        · rename_i hc
          rw [hc, hquote]
          rfl
        · rename_i hc
          rw [doubleQuotes_of_ne fun b hb => ne_of_mem_utf8EncodeChar (by decide) hc hb,
            Text.encodeChars_cons, Text.encodeChars_nil, List.append_nil]
  rw [enclose, List.cons_append, Text.encodeChars_cons, Text.encodeChars_append, hdouble, hquote]
  rfl

/-- Enclosed fields stand with delimiters between them. -/
theorem encloseAll_cons_cons (field next : String) (rest : List String) :
    encloseAll delimiter (field :: next :: rest) =
      enclose field.toList ++ mark delimiter :: encloseAll delimiter (next :: rest) :=
  rfl

/-- The bytes of enclosed fields are those of the quoted row. -/
theorem encodeChars_encloseAll (h : Separates delimiter) (fields : List String) :
    Text.encodeChars (encloseAll delimiter fields) =
      quoteRow delimiter (fields.map Text.encode) := by
  induction fields with
  | nil => rfl
  | cons field rest ih =>
      cases rest with
      | nil => exact encodeChars_enclose field.toList
      | cons next rest =>
          rw [encloseAll_cons_cons, Text.encodeChars_append, encodeChars_enclose,
            Text.encodeChars_cons, ih, mark, Text.utf8EncodeChar_ofNat h.ascii]
          rfl

/-- The text of a row of enclosed fields begins with a quote. -/
theorem exists_encloseAll (delimiter : UInt8) {fields : List String} (hne : fields ≠ []) :
    ∃ rest, encloseAll delimiter fields = '"' :: rest := by
  cases fields with
  | nil => exact absurd rfl hne
  | cons field rest =>
      cases rest with
      | nil => exact ⟨_, rfl⟩
      | cons next rest => exact ⟨_, rfl⟩

/-- It ends with a quote. -/
theorem getLast?_encloseAll (delimiter : UInt8) {fields : List String} (hne : fields ≠ []) :
    (encloseAll delimiter fields).getLast? = some '"' := by
  induction fields with
  | nil => exact absurd rfl hne
  | cons field rest ih =>
      cases rest with
      | nil => exact List.getLast?_concat
      | cons next rest =>
          have hrest := ih (List.cons_ne_nil next rest)
          obtain ⟨behind, hbehind⟩ := exists_encloseAll delimiter (List.cons_ne_nil next rest)
          rw [encloseAll_cons_cons, List.getLast?_append, hbehind, List.getLast?_cons_cons, ← hbehind,
            hrest]
          rfl

/-- Nothing stands in the row but quotes, delimiters and what the fields hold. -/
theorem mem_encloseAll {fields : List String} {c : Char} (h : c ∈ encloseAll delimiter fields) :
    c = '"' ∨ c = mark delimiter ∨ ∃ field ∈ fields, c ∈ field.toList := by
  have henclose {field : List Char} (hc : c ∈ enclose field) : c = '"' ∨ c ∈ field := by
    rw [enclose, List.cons_append, List.mem_cons, List.mem_append, List.mem_singleton] at hc
    rcases hc with rfl | hc | rfl
    · exact .inl rfl
    · obtain ⟨d, hd, hc⟩ := List.mem_flatMap.mp hc
      split at hc
      · exact .inl (by simpa using hc)
      · obtain rfl := List.mem_singleton.mp hc
        exact .inr hd
    · exact .inl rfl
  induction fields with
  | nil => exact absurd h List.not_mem_nil
  | cons field rest ih =>
      cases rest with
      | nil =>
          rcases henclose h with hc | hc
          · exact .inl hc
          · exact .inr (.inr ⟨field, List.mem_cons_self, hc⟩)
      | cons next rest =>
          rw [encloseAll_cons_cons, List.mem_append, List.mem_cons] at h
          rcases h with hc | hc | hc
          · rcases henclose hc with hc | hc
            · exact .inl hc
            · exact .inr (.inr ⟨field, List.mem_cons_self, hc⟩)
          · exact .inr (.inl hc)
          · rcases ih hc with hc | hc | ⟨other, hother, hc⟩
            · exact .inl hc
            · exact .inr (.inl hc)
            · exact .inr (.inr ⟨other, List.mem_cons_of_mem _ hother, hc⟩)

/-- **Fields are read back from the text in which they are enclosed in quotes.** -/
theorem fields_encloseAll (h : Separates delimiter) {texts : List String} (hne : texts ≠ []) :
    fields delimiter (String.ofList (encloseAll delimiter texts)) = texts := by
  have hmark : (encloseAll delimiter texts).head? ≠ some '\ufeff' := by
    obtain ⟨rest, hrest⟩ := exists_encloseAll delimiter hne
    rw [hrest]
    exact fun heq => absurd (Option.some.inj heq) (by decide)
  have hne : texts.map Text.encode ≠ [] := fun hnil => hne (List.map_eq_nil_iff.mp hnil)
  have hread := fieldsFrom_quoteRow h ends_nil hne (.inl rfl)
  rw [List.append_nil] at hread
  have hdecode : Text.decodeLossy ∘ Text.encode = id := by
    funext s
    exact (Text.decodeLossy_encodeChars s.toList).trans String.ofList_toList
  rw [fields, byteFields, Text.encode, String.toList_ofList,
    Text.dropByteOrderMark_encodeChars hmark, encodeChars_encloseAll h, hread, List.map_map, hdecode,
    List.map_id]

end Row

end AnnotatedText
