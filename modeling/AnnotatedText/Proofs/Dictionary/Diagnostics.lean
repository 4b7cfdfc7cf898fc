import AnnotatedText.Proofs.Dictionary.Accepted
import Mathlib.Data.List.Flatten

/-!
# Diagnostics of a history

What is found faulty while a list is read is noted at once, and whether the list has a type for its
annotations is looked at afterwards. So the diagnostics of a builder are those of all calls for which
something was read, `DictionaryBuilder.diagnostics_run`, and a list without a type leaves its
diagnostics behind though it is not added. So does a list for which there is no place, and one whose
reading is broken off. Every other call that fails does so before anything is noted.

The diagnostics describe the lists that were added and no others exactly if no such list had faulty
entries.

## Main results

* `DictionaryBuilder.diagnostics_add`: what one call notes.
* `DictionaryBuilder.diagnostics_after_any_calls`: what a history has noted.
* `DictionaryBuilder.untyped_list_leaves_diagnostic`
-/

namespace AnnotatedText

namespace Call

/-- The **diagnostics of a call**: those of what is read for it. -/
def diagnostics (c : Call) : List Diagnostic :=
  match c.reading? with
  | none => []
  | some (.error ds) => ds
  | some (.ok found) => found.diagnostics

variable {c : Call}

/-- A call is not accepted if its list has no type, or nothing is read for it, or not to the end. -/
theorem isAccepted_eq_false_iff :
    c.isAccepted = false ↔ c.list.typeName = "" ∨ c.reading? = none ∨ c.breaksOff = true := by
  by_cases htype : c.list.typeName = ""
  · simp [isAccepted, entries?, htype]
  · rcases hread : c.reading? with _ | ds | found <;>
      simp [isAccepted, entries?, breaksOff, htype, hread]

end Call

namespace DictionaryBuilder

/-- The diagnostics of a harvest are taken down whether its list is added or not. -/
theorem diagnostics_addHarvest (b : DictionaryBuilder) (list : SourceList) (found : Harvest) :
    (b.addHarvest list found).builder.diagnostics = b.diagnostics ++ found.diagnostics := by
  rw [addHarvest]
  split
  · rfl
  · split <;> rfl

/-- **What one call notes** is what is faulty in what is read for it, whether its list is added or
not. -/
theorem diagnostics_add (b : DictionaryBuilder) (c : Call) :
    (b.add c).builder.diagnostics = b.diagnostics ++ c.diagnostics := by
  obtain ⟨hread, e, -, -, hadd⟩ | ⟨ds, hread, hadd⟩ | ⟨found, hread, hadd⟩ := b.add_eq c
  · simp [Call.diagnostics, hread, hadd]
  · simp [Call.diagnostics, hread, hadd, refuse, note]
  · rw [hadd, diagnostics_addHarvest, Call.diagnostics, hread]

/-- A call of a list with a type that fails for no lack of places and is not broken off has nothing
read for it. -/
theorem reading?_of_error {b : DictionaryBuilder} {c : Call} {e : ListError}
    (h : (b.add c).error? = some e) (htype : c.list.typeName ≠ "") (hplace : e ≠ .noPlace)
    (hbroken : e ≠ .brokenOff) : c.reading? = none := by
  obtain ⟨hread, -⟩ | ⟨ds, -, hadd⟩ | ⟨found, -, hadd⟩ := b.add_eq c
  · exact hread
  · rw [hadd, refuse] at h
    exact absurd (Option.some.inj h).symm hbroken
  · rw [hadd, addHarvest, if_neg htype] at h
    split at h
    · exact absurd (Option.some.inj h).symm hplace
    · cases h

/-- **What a history notes** is what its calls note, in order. -/
theorem diagnostics_run (b : DictionaryBuilder) (calls : List Call) :
    (b.run calls).diagnostics = b.diagnostics ++ calls.flatMap Call.diagnostics := by
  induction calls generalizing b with
  | nil => exact (List.append_nil _).symm
  | cons c rest ih => rw [run, ih, diagnostics_add, List.flatMap_cons, List.append_assoc]

/-- Diagnostics are those of the accepted calls alone if and only if the others have none. -/
theorem flatMap_diagnostics_filter_iff (calls : List Call) :
    calls.flatMap Call.diagnostics = (calls.filter Call.isAccepted).flatMap Call.diagnostics ↔
      ∀ c ∈ calls, c.isAccepted = false → c.diagnostics = [] := by
  induction calls with
  | nil => simp
  | cons c rest ih =>
      rw [List.forall_mem_cons, List.flatMap_cons]
      cases hc : c.isAccepted with
      | true =>
          rw [List.filter_cons_of_pos hc, List.flatMap_cons, List.append_right_inj, ih]
          simp
      | false =>
          rw [List.filter_cons_of_neg (by simp [hc])]
          -- the others have no more diagnostics than all, so there is no room for those of this call
          have hshort : ((rest.filter Call.isAccepted).flatMap Call.diagnostics).length ≤
              (rest.flatMap Call.diagnostics).length :=
            (List.filter_sublist.flatMap Call.diagnostics).length_le
          constructor
          · intro h
            have hlength := congrArg List.length h
            rw [List.length_append] at hlength
            have hnone : c.diagnostics = [] := List.eq_nil_of_length_eq_zero (by omega)
            rw [hnone, List.nil_append] at h
            exact ⟨fun _ => hnone, ih.mp h⟩
          · rintro ⟨hnone, hrest⟩
            rw [hnone rfl, List.nil_append]
            exact ih.mpr hrest

/-- Diagnostics are those of the accepted calls alone if and only if the others have none, and
neither have those for whose lists there is no place. -/
theorem flatMap_diagnostics_accepted_iff (calls : List Call) :
    calls.flatMap Call.diagnostics = (Call.accepted calls).flatMap Call.diagnostics ↔
      (∀ c ∈ calls, c.isAccepted = false → c.diagnostics = []) ∧
        ∀ c ∈ (calls.filter Call.isAccepted).drop placeLimit, c.diagnostics = [] := by
  have hsplit : (calls.filter Call.isAccepted).flatMap Call.diagnostics =
      (Call.accepted calls).flatMap Call.diagnostics ++
        ((calls.filter Call.isAccepted).drop placeLimit).flatMap Call.diagnostics := by
    rw [Call.accepted, ← List.flatMap_append, List.take_append_drop]
  have hnone : ((calls.filter Call.isAccepted).drop placeLimit).flatMap Call.diagnostics = [] ↔
      ∀ c ∈ (calls.filter Call.isAccepted).drop placeLimit, c.diagnostics = [] :=
    List.flatMap_eq_nil_iff
  rw [← flatMap_diagnostics_filter_iff, ← hnone]
  constructor
  · intro h
    -- neither step from the accepted calls to all of them can add any
    have hshort : ((calls.filter Call.isAccepted).flatMap Call.diagnostics).length ≤
        (calls.flatMap Call.diagnostics).length :=
      (List.filter_sublist.flatMap Call.diagnostics).length_le
    rw [h, hsplit, List.length_append] at hshort
    have hnil := List.eq_nil_of_length_eq_zero (Nat.le_zero.mp (Nat.le_of_add_le_add_left hshort))
    rw [hnil, List.append_nil] at hsplit
    exact ⟨h.trans hsplit.symm, hnil⟩
  · rintro ⟨hall, hnil⟩
    rw [hall, hsplit, hnil, List.append_nil]

/-- **The diagnostics after any calls** are those of everything that was read, in order. A call of a
list with a type that fails leaves them as they were, unless its reading was broken off or there was
no place for its list. So the diagnostics are those of the calls that succeed if and only if there
were none of lists without a type, of readings that were broken off and of lists without a place. -/
theorem diagnostics_after_any_calls (options : DictionaryOptions) (calls : List Call) :
    ((empty options).run calls).diagnostics = calls.flatMap Call.diagnostics ∧
    (∀ (b : DictionaryBuilder) (c : Call) (e : ListError), c.list.typeName ≠ "" →
      (b.add c).error? = some e → e ≠ .noPlace → e ≠ .brokenOff →
        (b.add c).builder.diagnostics = b.diagnostics) ∧
    (((empty options).run calls).diagnostics =
        ((empty options).succeeded calls).flatMap Call.diagnostics ↔
      (∀ c ∈ calls, c.list.typeName = "" ∨ c.breaksOff = true → c.diagnostics = []) ∧
        ∀ c ∈ (calls.filter Call.isAccepted).drop placeLimit, c.diagnostics = []) := by
  have hrun : ((empty options).run calls).diagnostics = calls.flatMap Call.diagnostics :=
    diagnostics_run (empty options) calls
  refine ⟨hrun, fun b c e htype herror hplace hbroken => ?_, ?_⟩
  · have hnone := reading?_of_error herror htype hplace hbroken
    rw [diagnostics_add, Call.diagnostics, hnone, List.append_nil]
  · rw [hrun, succeeded_empty, flatMap_diagnostics_accepted_iff]
    refine and_congr_left fun _ => forall₂_congr fun c _ => ?_
    rw [Call.isAccepted_eq_false_iff]
    refine ⟨fun h hcause => h (hcause.imp_right .inr), fun h hcause => ?_⟩
    rcases hcause with htype | hnone | hbroken
    · exact h (.inl htype)
    · rw [Call.diagnostics, hnone]
    · exact h (.inr hbroken)

/-- A list without a type is not added, and its diagnostics stay. -/
theorem untyped_list_leaves_diagnostic :
    ¬ ∀ (options : DictionaryOptions) (calls : List Call),
      ((empty options).run calls).diagnostics =
        ((empty options).succeeded calls).flatMap Call.diagnostics := by
  intro h
  have hlist := h ⟨true, true⟩
    [⟨⟨"l", "", []⟩, .lexicon .standard (.ok (Text.encode "a;b"))⟩]
  have hnoted : ((empty ⟨true, true⟩).run [⟨⟨"l", "", []⟩,
      .lexicon .standard (.ok (Text.encode "a;b"))⟩]).diagnostics =
        [⟨"l", 1, .fieldCount 1 2⟩] := by
    decide +kernel
  rw [hnoted, succeeded_empty, Call.accepted, List.filter_cons_of_neg (by decide)] at hlist
  cases hlist

end DictionaryBuilder

end AnnotatedText
