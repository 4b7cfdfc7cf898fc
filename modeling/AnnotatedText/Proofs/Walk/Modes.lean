import AnnotatedText.Proofs.Walk.Branches
import AnnotatedText.Proofs.Walk.Selection

/-!
# Collecting and selecting by the covered text

Collecting and selecting differ in what they do at the last segment of a path: collecting goes on to the
annotations behind a feature there, selecting sees the value of the feature. Where the covered text is
last there is no such feature, and both meet the same, `encounters_selecting_eq`.

What both make of it can be compared then. A predicate that is never satisfied is asked about every
observation up to the first fault, so it hears of the annotations that are collected, and the selection
fails as the collecting does. A predicate about the holder alone is satisfied if it is by one of the
annotations that are collected.

## Main results

* `encounters_selecting_eq`: both walks meet the same.
* `consultations_of_holders`: what a predicate about holders is asked, and whether it is satisfied.
* `collect_and_select_agree`
-/

namespace AnnotatedText

variable {ts : TypeSystem} {doc : Document} {path : List Segment} {a : Annotation}
  {es : List Encounter} {as : List Annotation} {e : WalkError}

/-- **Where the covered text is last, both walks meet the same.** -/
theorem encounters_selecting_eq (h : path.getLast? = some .coveredText) (a : Annotation) :
    encounters ts doc .selecting path a = encounters ts doc .collecting path a := by
  induction path generalizing a with
  | nil => cases h
  | cons s tail ih =>
      cases tail with
      | nil =>
          obtain rfl : s = .coveredText := Option.some.inj h
          rfl
      | cons next rest =>
          have htail : (next :: rest).getLast? = some .coveredText := by
            rwa [List.getLast?_cons_cons] at h
          rw [encounters, encounters]
          simp [ih htail]

/-! ### What a predicate about holders is asked -/

/-- A predicate that is never satisfied meets the first fault, as one who notes all holders does. -/
theorem consultations_eq_error_iff_holders :
    (consultations (fun _ _ => false) es).2 = .error e ↔ holders es = .error e := by
  induction es with
  | nil => simp [consultations, holders]
  | cons first rest ih =>
      cases first with
      | failed e' => simp [consultations, holders]
      | observed b o =>
          rw [consultations, holders]
          simp only [Bool.false_eq_true, if_false, ih]
          cases holders rest <;> simp [Except.map]

/-- **Without a fault a predicate about holders is satisfied if it is by one of them.** -/
theorem consultations_of_holders (h : holders es = .ok as) (test : Annotation → Bool) :
    (consultations (fun _ b => test b) es).2 = .ok (as.any test) := by
  induction es generalizing as with
  | nil =>
      obtain rfl := Except.ok.inj h
      rfl
  | cons first rest ih =>
      cases first with
      | failed e => cases h
      | observed b o =>
          rw [holders] at h
          cases hrest : holders rest with
          | error e => simp [hrest, Except.map] at h
          | ok more =>
              obtain rfl : b :: more = as := by simpa [hrest, Except.map] using h
              rw [consultations, List.any_cons]
              cases htest : test b with
              | true => simp
              | false => simp [ih hrest]

/-- **A predicate that is never satisfied is asked about all holders**, in the order in which they are
met. -/
theorem map_holder_consultations (h : holders es = .ok as) :
    (consultations (fun _ _ => false) es).1.map Consultation.holder = as := by
  induction es generalizing as with
  | nil =>
      obtain rfl := Except.ok.inj h
      rfl
  | cons first rest ih =>
      cases first with
      | failed e => cases h
      | observed b o =>
          rw [holders] at h
          cases hrest : holders rest with
          | error e => simp [hrest, Except.map] at h
          | ok more =>
              obtain rfl : b :: more = as := by simpa [hrest, Except.map] using h
              simp [consultations, ih hrest]

/-! ### One root -/

/-- What is made of a result does not change whether there is one. -/
theorem map_eq_error_iff {ε α β : Type} {f : α → β} {outcome : Except ε α} {e : ε} :
    outcome.map f = .error e ↔ outcome = .error e := by
  cases outcome <;> simp [Except.map]

section Root

variable {r : AnnotationId} (hr : doc.find? r = some a)

include hr

/-- A root that is found is looked up as its annotation. -/
theorem filterMap_find?_singleton : [r].filterMap doc.find? = [a] := by
  rw [List.filterMap_cons, hr, List.filterMap_nil]

/-- Collecting from one root notes the holders that it meets. -/
theorem collect_singleton :
    collect ts doc [r] path = (holders (encounters ts doc .collecting path a)).map inOrder := by
  rw [collect_eq, filterMap_find?_singleton hr, List.flatMap_singleton]

/-- Selecting from one root asks about what it meets. -/
theorem select_singleton (q : Observation → Annotation → Bool) :
    select ts doc [r] path q =
      ⟨(consultations q (encounters ts doc .selecting path a)).1,
        (consultations q (encounters ts doc .selecting path a)).2.map
          fun satisfied => if satisfied then [a] else []⟩ := by
  rw [select_eq, filterMap_find?_singleton hr, verdicts, verdicts]
  rcases consultations q (encounters ts doc .selecting path a) with ⟨asked, e | satisfied⟩
  · rfl
  · cases satisfied <;> simp [Except.map, inOrder, insertOrdered]

end Root

/-- **Collecting and selecting agree where the covered text is last.** For every document that changes
make and each of its annotations as the root: a selection whose predicate is never satisfied fails
exactly if collecting does, and with the same error. If collecting succeeds, the annotations collected
are those by whose place a selection selects the root, and they are the holders that the predicate which
is never satisfied is asked about. -/
theorem collect_and_select_agree (text : String) (cs : List Document.Change) {doc : Document}
    (hdoc : .changed text cs = doc) (ts : TypeSystem) {path : List Segment}
    (hlast : path.getLast? = some .coveredText) {r : AnnotationId} {a : Annotation}
    (hr : doc.find? r = some a) :
    (∀ e, (select ts doc [r] path fun _ _ => false).outcome = .error e ↔
      collect ts doc [r] path = .error e) ∧
    ∀ found, collect ts doc [r] path = .ok found →
      (∀ x, x ∈ found.map Annotation.id ↔
        (select ts doc [r] path fun _ b => b.id == x).outcome = .ok [a]) ∧
      ∀ b, b ∈ found ↔
        b ∈ (select ts doc [r] path fun _ _ => false).asked.map Consultation.holder := by
  have hwf : doc.WellFormed := hdoc ▸ Document.wellFormed_changed text cs
  have hmeets : encounters ts doc .selecting path a = encounters ts doc .collecting path a :=
    encounters_selecting_eq hlast a
  refine ⟨fun e => ?_, fun found hfound => ?_⟩
  · rw [select_singleton hr, collect_singleton hr, hmeets, map_eq_error_iff, map_eq_error_iff]
    exact consultations_eq_error_iff_holders
  · obtain ⟨as, has⟩ : ∃ as, holders (encounters ts doc .collecting path a) = .ok as := by
      cases hholders : holders (encounters ts doc .collecting path a) with
      | ok as => exact ⟨as, rfl⟩
      | error e =>
          rw [collect_singleton hr, hholders] at hfound
          cases hfound
    have hmem (b : Annotation) : b ∈ found ↔ b ∈ as := by
      obtain ⟨-, -, hfound⟩ := (collect_eq_ok_iff hwf).mp hfound
      obtain ⟨-, hobserved⟩ := holders_eq_ok has
      rw [hfound, hobserved, filterMap_find?_singleton hr, List.flatMap_singleton]
    refine ⟨fun x => ?_, fun b => ?_⟩
    · rw [select_singleton hr, hmeets, consultations_of_holders has fun b => b.id == x]
      have hany : (as.any fun b => b.id == x) = true ↔ x ∈ found.map Annotation.id := by
        rw [List.any_eq_true, List.mem_map]
        exact exists_congr fun b => and_congr (hmem b).symm beq_iff_eq
      rw [← hany]
      cases as.any fun b => b.id == x <;> simp [Except.map]
    · rw [select_singleton hr, hmeets, map_holder_consultations has, hmem]

/-- A path to the texts of the others. -/
def Sample.toOtherTexts : List Segment := [.named "others" ⟨1⟩, .coveredText]

/-- The texts of the others of the later mention are those of both mentions, so it is selected by the
places of both and by no other. -/
theorem collect_and_select_others :
    Sample.toOtherTexts.getLast? = some .coveredText ∧
      ∃ a found, Sample.meeting.find? ⟨1⟩ = some a ∧
        collect (.declared Sample.mentions) Sample.meeting [⟨1⟩] Sample.toOtherTexts = .ok found ∧
        ∀ x, (select (.declared Sample.mentions) Sample.meeting [⟨1⟩] Sample.toOtherTexts
          fun _ b => b.id == x).outcome = .ok [a] ↔ x = ⟨0⟩ ∨ x = ⟨1⟩ := by
  have hlast : Sample.toOtherTexts.getLast? = some .coveredText := by decide
  have hids : (collect (.declared Sample.mentions) Sample.meeting [⟨1⟩] Sample.toOtherTexts).map
      (·.map Annotation.id) = .ok [⟨0⟩, ⟨1⟩] := by
    decide +kernel
  have hroot : (Sample.meeting.find? ⟨1⟩).isSome = true := by decide +kernel
  have hdoc : Document.changed _ _ = Sample.meeting := rfl
  obtain ⟨a, ha⟩ := Option.isSome_iff_exists.mp hroot
  obtain ⟨-, hselected⟩ := collect_and_select_agree _ _ hdoc (.declared Sample.mentions) hlast ha
  cases hfound : collect (.declared Sample.mentions) Sample.meeting [⟨1⟩] Sample.toOtherTexts with
  | error e =>
      rw [hfound] at hids
      cases hids
  | ok found =>
      rw [hfound] at hids
      have hplaces : found.map Annotation.id = [⟨0⟩, ⟨1⟩] := Except.ok.inj hids
      refine ⟨hlast, a, found, ha, rfl, fun x => ?_⟩
      rw [← (hselected found hfound).1 x, hplaces, List.mem_pair]

end AnnotatedText
