import AnnotatedText.Proofs.Row.Fields

/-!
# Rows read through a buffer

A row is read by calls of which each is given the bytes that are left and a buffer with room for a
certain number of bytes. A call goes on until a field ends, the bytes are used up or the buffer is
full; it tells which, and a call without bytes ends what has begun. A field that is longer than the
buffer comes in pieces, which are put together again.

Where a call is interrupted does not matter, not even between two quotes of which the first may
close the field: whether it does is in the state of the machine, and what a call has written and
what is still to come make up what was to come before, `foldr_written_toCome`. So as long as there
is room for one byte the loop comes to an end, since each call with bytes uses at least one of them,
and its fields are those of the row. Without any room it goes on for ever, `readRecord_zero`.

## Main results

* `Row.foldr_written_toCome`: what one call does.
* `Row.fieldsWithin_eq`: the loop ends, with the fields of the row.
* `Row.fieldsWithin_agree`: it does so for each size of the buffer, and reads back quoted fields.
-/

namespace AnnotatedText

namespace Row

/-! ### Calls -/

/-- How a call ends. -/
inductive Ending where
  /-- The bytes are used up, and the field may go on with others. -/
  | inputEmpty
  /-- There are more bytes, but there is no room for another one. -/
  | outputFull
  | field (recordEnd : Bool)
  /-- There is nothing more to read. -/
  | finished
  deriving DecidableEq

/-- What a call has done: how it has ended, the state of the machine, what it has written and the
bytes that it has left. -/
structure Call where
  ending : Ending
  state : State
  written : Bytes
  rest : Bytes
  deriving DecidableEq

/-- The call with a byte written before. -/
def Call.write (b : UInt8) (c : Call) : Call := { c with written := b :: c.written }

/-- Runs the machine on bytes, with room for some in the buffer. It stops in front of a byte when
there is no room, also when the byte would need none. -/
def scan (delimiter : UInt8) : Nat → State → Bytes → Call
  | _, state, [] => ⟨.inputEmpty, state, [], []⟩
  | 0, state, b :: rest => ⟨.outputFull, state, [], b :: rest⟩
  | room + 1, state, b :: rest =>
    match step delimiter state b with
    | .skip => scan delimiter (room + 1) .recordStart rest
    | .enter next => scan delimiter (room + 1) next rest
    | .add next => (scan delimiter room next rest).write b
    | .endField => ⟨.field false, .fieldStart, [], rest⟩
    | .endRecord => ⟨.field true, .recordStart, [], rest⟩

/-- Ends what has begun, when there are no more bytes. -/
def finish : State → Call
  | .recordStart => ⟨.finished, .recordStart, [], []⟩
  | _ => ⟨.field true, .recordStart, [], []⟩

/-- A reader between calls: the state of the machine, and whether there has been a call. -/
structure Reader where
  state : State
  hasRead : Bool
  deriving DecidableEq

/-- The reader before the first call. -/
def Reader.start : Reader := ⟨.recordStart, false⟩

/-- Reads a field, or a piece of one. The first call drops a byte order mark. -/
def Reader.readField (delimiter : UInt8) (capacity : Nat) (r : Reader) (input : Bytes) : Call :=
  let bytes := if r.hasRead then input else Text.dropByteOrderMark input
  if bytes = [] then finish r.state else scan delimiter capacity r.state bytes

/-- Puts the pieces of fields together, in a limited number of calls; undefined if they do not
suffice. -/
def readRecord (delimiter : UInt8) (capacity : Nat) :
    Nat → Reader → Bytes → Bytes → Option (List Bytes)
  | 0, _, _, _ => none
  | calls + 1, r, field, input =>
    let call := r.readField delimiter capacity input
    match call.ending with
    | .inputEmpty | .outputFull =>
      readRecord delimiter capacity calls ⟨call.state, true⟩ (field ++ call.written) call.rest
    | .field true => some [field ++ call.written]
    | .field false =>
      (readRecord delimiter capacity calls ⟨call.state, true⟩ [] call.rest).map
        ((field ++ call.written) :: ·)
    | .finished => some []

/-- The fields of a row, read through a buffer in a limited number of calls. -/
def fieldsWithin (delimiter : UInt8) (capacity calls : Nat) (row : String) : Option (List String) :=
  (readRecord delimiter capacity calls .start [] (Text.encode row)).map (·.map Text.decodeLossy)

variable {delimiter : UInt8} {capacity room : Nat} {state : State} {input : Bytes}

/-! ### One call -/

/-- The fields that are still **to come** after a call, the one it has written in first. -/
def Call.toCome (delimiter : UInt8) (c : Call) : List Bytes :=
  match c.ending with
  | .inputEmpty | .outputFull => fieldsFrom delimiter c.state c.rest
  | .field true => [[]]
  | .field false => [] :: fieldsFrom delimiter c.state c.rest
  | .finished => []

/-- A byte that is written before is no longer to come. -/
theorem toCome_write (b : UInt8) (c : Call) : (c.write b).toCome delimiter = c.toCome delimiter :=
  rfl

/-- **What a call has written and what is to come** is what was to come before. -/
theorem foldr_written_toCome (delimiter : UInt8) (room : Nat) (state : State) (input : Bytes) :
    (scan delimiter room state input).written.foldr prepend
      ((scan delimiter room state input).toCome delimiter) = fieldsFrom delimiter state input := by
  fun_induction scan delimiter room state input with
  | case1 room state => rfl
  | case2 state b rest => rfl
  | case3 room state b rest hstep ih => simp [fieldsFrom, hstep, ih]
  | case4 room state b rest next hstep ih => simp [fieldsFrom, hstep, ih]
  | case5 room state b rest next hstep ih =>
      rw [toCome_write, Call.write, List.foldr_cons, ih]
      simp [fieldsFrom, hstep]
  | case6 room state b rest hstep => simp [fieldsFrom, hstep, Call.toCome]
  | case7 room state b rest hstep => simp [fieldsFrom, hstep, Call.toCome]

/-- A call does not add to the bytes. -/
theorem length_rest_le (delimiter : UInt8) (room : Nat) (state : State) (input : Bytes) :
    (scan delimiter room state input).rest.length ≤ input.length := by
  fun_induction scan delimiter room state input with
  | case1 room state => exact Nat.le_refl _
  | case2 state b rest => exact Nat.le_refl _
  | case3 room state b rest hstep ih => exact Nat.le_succ_of_le ih
  | case4 room state b rest next hstep ih => exact Nat.le_succ_of_le ih
  | case5 room state b rest next hstep ih => exact Nat.le_succ_of_le ih
  | case6 room state b rest hstep => exact Nat.le_succ _
  | case7 room state b rest hstep => exact Nat.le_succ _

/-- **With room for one byte, a call uses at least one.** -/
theorem length_rest_lt (delimiter : UInt8) (hroom : 0 < room) (state : State)
    (hinput : input ≠ []) :
    (scan delimiter room state input).rest.length < input.length := by
  obtain ⟨room, rfl⟩ := Nat.exists_eq_add_of_lt hroom
  obtain ⟨b, rest, rfl⟩ := List.exists_cons_of_ne_nil hinput
  rw [Nat.zero_add, scan]
  split
  · exact Nat.lt_succ_of_le (length_rest_le ..)
  · exact Nat.lt_succ_of_le (length_rest_le ..)
  · exact Nat.lt_succ_of_le (length_rest_le ..)
  · exact Nat.lt_succ_self _
  · exact Nat.lt_succ_self _

/-- A byte is skipped only in front of a record. -/
theorem eq_recordStart_of_skip {b : UInt8} (h : step delimiter state b = .skip) :
    state = .recordStart := by
  cases state <;> grind [step, plainStep]

/-- A byte that opens or adds to a field leads into the record. -/
theorem ne_recordStart_of_step {b : UInt8} {next : State}
    (h : step delimiter state b = .enter next ∨ step delimiter state b = .add next) :
    next ≠ .recordStart := by
  rintro rfl
  cases state <;> grind [step, plainStep]

/-- Where a call leaves the machine in front of a record, it has been there all the time and nothing
has been written, unless the record has ended. -/
theorem written_eq_nil (hstate : (scan delimiter room state input).state = .recordStart)
    (hending : (scan delimiter room state input).ending ≠ .field true) :
    state = .recordStart ∧ (scan delimiter room state input).written = [] := by
  fun_induction scan delimiter room state input with
  | case1 room state => exact ⟨hstate, rfl⟩
  | case2 state b rest => exact ⟨hstate, rfl⟩
  | case3 room state b rest hstep ih =>
      exact ⟨eq_recordStart_of_skip hstep, (ih hstate hending).2⟩
  | case4 room state b rest next hstep ih =>
      exact absurd (ih hstate hending).1 (ne_recordStart_of_step (.inl hstep))
  | case5 room state b rest next hstep ih =>
      exact absurd (ih hstate hending).1 (ne_recordStart_of_step (.inr hstep))
  | case6 room state b rest hstep => exact nomatch hstate
  | case7 room state b rest hstep => exact absurd rfl hending

/-- Only a call without bytes finds that there is nothing more. -/
theorem ending_ne_finished : (scan delimiter room state input).ending ≠ .finished := by
  fun_induction scan delimiter room state input with
  | case1 room state => exact fun h => nomatch h
  | case2 state b rest => exact fun h => nomatch h
  | case3 room state b rest hstep ih => exact ih
  | case4 room state b rest next hstep ih => exact ih
  | case5 room state b rest next hstep ih => exact ih
  | case6 room state b rest hstep => exact fun h => nomatch h
  | case7 room state b rest hstep => exact fun h => nomatch h

/-! ### All calls -/

/-- A call without bytes ends the last field. In front of a record there is no piece of one. -/
theorem readRecord_nil {field : Bytes} (calls : Nat) (hfield : state = .recordStart → field = []) :
    readRecord delimiter capacity (calls + 1) ⟨state, true⟩ field [] =
      some (field.foldr prepend (fieldsFrom delimiter state [])) := by
  have hcall : Reader.readField delimiter capacity ⟨state, true⟩ [] = finish state := rfl
  rw [readRecord]
  simp only [hcall]
  cases state with
  | recordStart =>
      rw [hfield rfl]
      rfl
  | fieldStart | inField | quoted | afterQuote =>
      simp [finish, fieldsFrom, foldr_prepend_cons]

/-- **The pieces of fields are put together to the fields.** As long as there is room for one byte,
one call for each byte and another one are enough. -/
theorem readRecord_eq (hcapacity : 0 < capacity) {calls : Nat} {field : Bytes}
    (hcalls : input.length < calls) (hfield : state = .recordStart → field = []) :
    readRecord delimiter capacity calls ⟨state, true⟩ field input =
      some (field.foldr prepend (fieldsFrom delimiter state input)) := by
  induction calls generalizing state field input with
  | zero => exact absurd hcalls (Nat.not_lt_zero _)
  | succ calls ih =>
      by_cases hinput : input = []
      · rw [hinput]
        exact readRecord_nil calls hfield
      · have hcall : Reader.readField delimiter capacity ⟨state, true⟩ input =
            scan delimiter capacity state input := if_neg hinput
        have hless := length_rest_lt delimiter hcapacity state hinput
        have hfields := foldr_written_toCome delimiter capacity state input
        have hstart := @written_eq_nil delimiter capacity state input
        have hmore := @ending_ne_finished delimiter capacity state input
        rw [readRecord]
        simp only [hcall]
        generalize scan delimiter capacity state input = call at hless hfields hstart hmore
        have hshorter : call.rest.length < calls :=
          Nat.lt_of_lt_of_le hless (Nat.le_of_lt_succ hcalls)
        -- the piece so far is empty as long as the machine is in front of the record
        have hpiece (hending : call.ending ≠ .field true) (hnext : call.state = .recordStart) :
            field ++ call.written = [] := by
          obtain ⟨hstate, hwritten⟩ := hstart hnext hending
          rw [hfield hstate, hwritten, List.append_nil]
        rw [← hfields, ← List.foldr_append]
        cases hending : call.ending with
        | inputEmpty | outputFull =>
            rw [hending] at hpiece
            simp only [Call.toCome, hending]
            exact ih hshorter (hpiece (fun h => nomatch h))
        | field recordEnd =>
            cases recordEnd with
            | true => simp only [Call.toCome, hending, foldr_prepend_cons, List.append_nil]
            | false =>
                have hrest : readRecord delimiter capacity calls ⟨call.state, true⟩ [] call.rest =
                    some (fieldsFrom delimiter call.state call.rest) := ih hshorter fun _ => rfl
                simp only [Call.toCome, hending, foldr_prepend_cons, List.append_nil, hrest]
                rfl
        | finished => exact absurd hending hmore

/-- Without room the loop does not end, since no call uses any of the bytes. -/
theorem readRecord_zero (calls : Nat) (state : State) (field : Bytes) (hinput : input ≠ []) :
    readRecord delimiter 0 calls ⟨state, true⟩ field input = none := by
  obtain ⟨b, rest, rfl⟩ := List.exists_cons_of_ne_nil hinput
  have hcall : Reader.readField delimiter 0 ⟨state, true⟩ (b :: rest) =
      ⟨.outputFull, state, [], b :: rest⟩ := rfl
  induction calls generalizing field with
  | zero => rfl
  | succ calls ih =>
      rw [readRecord]
      simp only [hcall]
      exact ih _

/-- Dropping a byte order mark does not add to the bytes. -/
theorem length_dropByteOrderMark_le (bytes : Bytes) :
    (Text.dropByteOrderMark bytes).length ≤ bytes.length := by
  unfold Text.dropByteOrderMark
  split
  · simp only [List.length_cons]
    omega
  · exact Nat.le_refl _

/-- **The loop ends, with the fields of the row.** -/
theorem fieldsWithin_eq (hcapacity : 0 < capacity) {row : String} {calls : Nat}
    (hcalls : (Text.encode row).length < calls) :
    fieldsWithin delimiter capacity calls row = some (fields delimiter row) := by
  have hfirst : readRecord delimiter capacity calls .start [] (Text.encode row) =
      readRecord delimiter capacity calls ⟨.recordStart, true⟩ []
        (Text.dropByteOrderMark (Text.encode row)) := by
    cases calls with
    | zero => rfl
    | succ calls => rfl
  have hcalls : (Text.dropByteOrderMark (Text.encode row)).length < calls :=
    Nat.lt_of_le_of_lt (length_dropByteOrderMark_le _) hcalls
  rw [fieldsWithin, hfirst, readRecord_eq hcapacity hcalls fun _ => rfl]
  rfl

/-- **What is read does not depend on the buffer**, as long as there is room for one byte in it: the
loop ends for every row and every delimiter, with the fields of the row, and any number of calls
that is greater than the number of bytes is enough. So the fields that are enclosed in quotes, with
the quotes in them doubled, are read back, whatever they hold and however long they are. -/
theorem fieldsWithin_agree (delimiter : UInt8) {capacity : Nat} (hcapacity : 0 < capacity) :
    (∀ row : String, ∀ calls > (Text.encode row).length,
      fieldsWithin delimiter capacity calls row = some (fields delimiter row)) ∧
    ∀ texts : List String, Separates delimiter → texts ≠ [] →
      ∀ calls > (Text.encode (String.ofList (encloseAll delimiter texts))).length,
        fieldsWithin delimiter capacity calls (String.ofList (encloseAll delimiter texts)) =
          some texts := by
  refine ⟨fun row calls hcalls => fieldsWithin_eq hcapacity hcalls, ?_⟩
  intro texts hdelimiter hne calls hcalls
  rw [fieldsWithin_eq hcapacity hcalls, fields_encloseAll hdelimiter hne]

end Row

/-- Fields with quotes, a delimiter, line ends and a byte order mark in them, and an empty one. -/
def Sample.awkward : List String := ["\ufeff\"a;\"\r\n", "", "\"", ";\r"]

/-- They are read back through a buffer with room for one byte, which cuts between any two bytes of
the row, and through one of 4096. -/
theorem Row.fieldsWithin_agree_awkward :
    fieldsWithin 0x3B 1 64 (String.ofList (encloseAll 0x3B Sample.awkward)) = some Sample.awkward ∧
    fieldsWithin 0x3B 4096 64 (String.ofList (encloseAll 0x3B Sample.awkward)) =
      some Sample.awkward := by
  have hdelimiter : Separates 0x3B := ⟨by decide, by decide, by decide⟩
  have hcalls : 64 > (Text.encode (String.ofList (encloseAll 0x3B Sample.awkward))).length := by
    decide +kernel
  exact ⟨(fieldsWithin_agree 0x3B (by decide)).2 _ hdelimiter (by decide) 64 hcalls,
    (fieldsWithin_agree 0x3B (by decide)).2 _ hdelimiter (by decide) 64 hcalls⟩

end AnnotatedText
