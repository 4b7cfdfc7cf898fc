import AnnotatedText.Proofs.Walk.Branches
import AnnotatedText.Proofs.Walk.Selection

/-!
# Observations of a root

What a selection sees from an annotation along a path is said here as a relation, `Sees`, with one
rule for each thing that can happen there. It differs from the branches of a collecting walk at the
last segment: a feature there is the end of the branch whatever its range is, so its value is seen
itself and no reference is followed. What is seen behind a reference or behind the elements of an
array is one list after the other, which makes the order depth first and from left to right.

Of the list that is seen from a root a predicate hears only a part. It is asked about the observations
in order, up to the first that it accepts; a fault that stands behind that one is never met, and one
that stands before it ends the whole selection, with all roots that are still to come. The order of a
rejected observation, a fault and an accepted one therefore decides, and this is what
`Encounter.FaultFirst` and `Encounter.Accepted` say.

## Main results

* `sees_iff`: what is seen are the encounters of a selecting walk.
* `verdicts_cases`: the roots in turn, up to the first one with a fault.
* `select_observations`: what a selection asks, when it fails, and what it selects.
-/

namespace AnnotatedText

/-! ### What is seen -/

/-- The annotations that a value **leads to in order**: its reference, the one reference at the index
of an array, or all references of the array. -/
inductive Value.LeadsInOrder : Value → Option Nat → List AnnotationId → Prop
  | reference (id : AnnotationId) (index? : Option Nat) : LeadsInOrder (.reference id) index? [id]
  | element {items : List Value} {i : Nat} {id : AnnotationId}
      (h : items[i]? = some (.reference id)) : LeadsInOrder (.array items) (some i) [id]
  | noElement {items : List Value} {i : Nat} (h : ∀ id, items[i]? ≠ some (.reference id)) :
      LeadsInOrder (.array items) (some i) []
  | every (items : List Value) : LeadsInOrder (.array items) none (items.filterMap reference?)

/-- What is **seen** from an annotation along a path, in order. -/
inductive Sees (ts : TypeSystem) (doc : Document) :
    List Segment → Annotation → List Encounter → Prop
  | exhausted (a : Annotation) : Sees ts doc [] a [.observed a (.text (doc.coveredText a))]
  | coveredText (tail : List Segment) (a : Annotation) :
      Sees ts doc (.coveredText :: tail) a [.observed a (.text (doc.coveredText a))]
  | shortName {a : Annotation} (h : ts.featureNamed? a.type coveredTextShortName = none) :
      Sees ts doc [.unbound coveredTextShortName none] a
        [.observed a (.text (doc.coveredText a))]
  /-- A name that the type does not know leads nowhere. -/
  | unknown {a : Annotation} {name : String} {index? : Option Nat} {tail : List Segment}
      (h : ts.featureNamed? a.type name = none)
      (hname : ¬ (name = coveredTextShortName ∧ index? = none ∧ tail = [])) :
      Sees ts doc (.unbound name index? :: tail) a []
  /-- A feature of scalars is terminal, and so is the one of the last segment. -/
  | terminal {s : Segment} {a : Annotation} {f : Feature} {index? : Option Nat}
      {tail : List Segment} (h : s.Through ts a f index?)
      (hend : f.range.isScalar = true ∨ tail = []) :
      Sees ts doc (s :: tail) a [.observed a (.ofValue? (a.value? f.id) index?)]
  | unset {s : Segment} {a : Annotation} {f : Feature} {index? : Option Nat}
      {tail : List Segment} (h : s.Through ts a f index?) (hrange : f.range.isScalar = false)
      (htail : tail ≠ []) (hvalue : a.value? f.id = none) : Sees ts doc (s :: tail) a []
  /-- A scalar in the way is a fault. -/
  | fault {s : Segment} {a : Annotation} {f : Feature} {index? : Option Nat}
      {tail : List Segment} {v : Scalar} {entry : TypeEntry} (h : s.Through ts a f index?)
      (hrange : f.range.isScalar = false) (htail : tail ≠ [])
      (hvalue : a.value? f.id = some (.scalar v)) (htype : ts.types[a.type.index]? = some entry) :
      Sees ts doc (s :: tail) a [.failed ⟨entry.name, f.name, v.kind.name⟩]
  | follow {s : Segment} {a : Annotation} {f : Feature} {index? : Option Nat}
      {tail : List Segment} {v : Value} {ids : List AnnotationId} {es : Annotation → List Encounter}
      (h : s.Through ts a f index?) (hrange : f.range.isScalar = false) (htail : tail ≠ [])
      (hvalue : a.value? f.id = some v) (hleads : v.LeadsInOrder index? ids)
      (hnext : ∀ b ∈ ids.filterMap doc.find?, Sees ts doc tail b (es b)) :
      Sees ts doc (s :: tail) a ((ids.filterMap doc.find?).flatMap es)

variable {ts : TypeSystem} {doc : Document} {s : Segment} {a : Annotation}
  {path tail : List Segment} {es : List Encounter} {q : Observation → Annotation → Bool}

/-- What a value leads to in order are its targets. -/
theorem Value.leadsInOrder_iff {v : Value} {index? : Option Nat} {ids : List AnnotationId} :
    v.LeadsInOrder index? ids ↔ v.targets? index? = some ids := by
  have hreference {item : Value} {id : AnnotationId} :
      item.reference? = some id ↔ item = .reference id := by
    cases item <;> simp [Value.reference?]
  constructor
  · intro h
    cases h with
    | reference => rfl
    | element h => simp [targets?, h, reference?]
    | @noElement items i h =>
        cases hitem : items[i]? with
        | none => simp [targets?, hitem]
        | some item =>
            have hnone : item.reference? = none :=
              Option.eq_none_iff_forall_ne_some.mpr fun id hid =>
                h id (hitem.trans (congrArg some (hreference.mp hid)))
            simp [targets?, hitem, hnone]
    | every items => rfl
  · intro h
    cases v with
    | scalar x => cases h
    | reference id =>
        obtain rfl := Option.some.inj h
        exact .reference id index?
    | array items =>
        cases index? with
        | none =>
            obtain rfl := Option.some.inj h
            exact .every items
        | some i =>
            obtain rfl := Option.some.inj h
            cases hitem : items[i]?.bind reference? with
            | some id =>
                obtain ⟨item, hget, hid⟩ := Option.bind_eq_some_iff.mp hitem
                exact .element (hget.trans (congrArg some (hreference.mp hid)))
            | none =>
                refine .noElement fun id hget => ?_
                simp [hget, reference?] at hitem

section Through

variable {f : Feature} {index? : Option Nat} (h : s.Through ts a f index?)

include h

/-- Where the range is scalar or the path ends, a selecting walk meets nothing but the value. -/
theorem encounters_selecting_of_terminal (hend : f.range.isScalar = true ∨ tail = []) :
    encounters ts doc .selecting (s :: tail) a =
      [.observed a (.ofValue? (a.value? f.id) index?)] := by
  rw [encounters, Segment.access_eq_feature_iff.mpr h]
  simp only [List.isEmpty_iff, true_and, if_pos hend]

/-- Else a selecting walk goes on from the targets of the value, or fails if that is a scalar. -/
theorem encounters_selecting_of_through (hrange : f.range.isScalar = false) (htail : tail ≠ []) :
    encounters ts doc .selecting (s :: tail) a =
      match a.value? f.id with
      | none => []
      | some v =>
        match v.targets? index? with
        | none => [.failed ⟨ts.typeName a.type, f.name, v.kindName⟩]
        | some ids =>
          (ids.filterMap doc.find?).flatMap fun next =>
            encounters ts doc .selecting tail next := by
  have hgo : ¬ (f.range.isScalar = true ∨
      (WalkMode.selecting = .selecting ∧ tail.isEmpty = true)) := by
    simp [hrange, htail]
  rw [encounters, Segment.access_eq_feature_iff.mpr h]
  exact if_neg hgo

end Through

/-- What is seen are the encounters of a selecting walk. -/
theorem Sees.eq_encounters (h : Sees ts doc path a es) :
    es = encounters ts doc .selecting path a := by
  induction h with
  | exhausted a => rw [encounters]
  | coveredText tail a => rw [encounters, Segment.access]
  | shortName h => simp [encounters, Segment.access, Access.ofName, h]
  | unknown h hname =>
      rw [encounters, Segment.access, Access.ofName, h]
      simp only [List.isEmpty_iff, if_neg hname]
  | terminal h hend => rw [encounters_selecting_of_terminal h hend]
  | unset h hrange htail hvalue =>
      rw [encounters_selecting_of_through h hrange htail, hvalue]
  | fault h hrange htail hvalue htype =>
      rw [encounters_selecting_of_through h hrange htail, hvalue, TypeSystem.typeName, htype]
      rfl
  | follow h hrange htail hvalue hleads hnext ih =>
      rw [encounters_selecting_of_through h hrange htail, hvalue]
      simp only [Value.leadsInOrder_iff.mp hleads]
      exact List.flatMap_congr fun b hb => ih b hb

/-- Where a segment leads through a feature, its encounters are seen if those behind it are. -/
theorem Segment.Through.sees {f : Feature} {index? : Option Nat} (h : s.Through ts a f index?)
    (htype : ts.hasType a.type = true)
    (hnext : ∀ b ∈ doc.annotations, Sees ts doc tail b (encounters ts doc .selecting tail b)) :
    Sees ts doc (s :: tail) a (encounters ts doc .selecting (s :: tail) a) := by
  by_cases hend : f.range.isScalar = true ∨ tail = []
  · rw [encounters_selecting_of_terminal h hend]
    exact .terminal h hend
  · obtain ⟨hrange, htail⟩ := not_or.mp hend
    have hrange := eq_false_of_ne_true hrange
    rw [encounters_selecting_of_through h hrange htail]
    cases hvalue : a.value? f.id with
    | none =>
        exact .unset h hrange htail hvalue
    | some v =>
        cases hids : v.targets? index? with
        | none =>
            obtain ⟨x, rfl⟩ := Value.targets?_eq_none_iff.mp hids
            obtain ⟨entry, hentry⟩ : ∃ entry, ts.types[a.type.index]? = some entry :=
              ⟨_, List.getElem?_eq_getElem (of_decide_eq_true htype)⟩
            have hname : ts.typeName a.type = entry.name := by rw [TypeSystem.typeName, hentry]
            simp only [hids, hname]
            exact .fault h hrange htail hvalue hentry
        | some ids =>
            simp only [hids]
            refine .follow h hrange htail hvalue (Value.leadsInOrder_iff.mpr hids) ?_
            intro b hb
            obtain ⟨id, -, hfind⟩ := List.mem_filterMap.mp hb
            exact hnext b (List.mem_of_getElem? hfind)

/-- The encounters along a path are seen, if the features that it is bound to are declared. -/
theorem sees_encounters (htypes : ∀ a ∈ doc.annotations, ts.hasType a.type = true)
    (hbound : ∀ s ∈ path, ∀ id, s.feature? = some id → ∃ f, ts.feature? id = some f)
    (ha : a ∈ doc.annotations) :
    Sees ts doc path a (encounters ts doc .selecting path a) := by
  induction path generalizing a with
  | nil =>
      rw [encounters]
      exact .exhausted a
  | cons s tail ih =>
      obtain ⟨hs, htail⟩ := List.forall_mem_cons.mp hbound
      have hthrough {f : Feature} {index? : Option Nat} (h : s.Through ts a f index?) :=
        h.sees (htypes a ha) fun b hb => ih htail hb
      cases s with
      | coveredText =>
          rw [encounters, Segment.access]
          exact .coveredText tail a
      | named name id =>
          obtain ⟨f, hf⟩ := hs id rfl
          exact hthrough (.named name hf)
      | indexed name id i =>
          obtain ⟨f, hf⟩ := hs id rfl
          exact hthrough (.indexed name i hf)
      | unbound name index? =>
          cases hf : ts.featureNamed? a.type name with
          | some f => exact hthrough (.unbound index? hf)
          | none =>
              by_cases hname : name = coveredTextShortName ∧ index? = none ∧ tail = []
              · obtain ⟨rfl, rfl, rfl⟩ := hname
                have hsees : Sees ts doc [.unbound coveredTextShortName none] a _ := .shortName hf
                exact hsees.eq_encounters ▸ hsees
              · have hsees : Sees ts doc (.unbound name index? :: tail) a [] := .unknown hf hname
                exact hsees.eq_encounters ▸ hsees

/-- **What is seen are the encounters of a selecting walk.** -/
theorem sees_iff (htypes : ∀ a ∈ doc.annotations, ts.hasType a.type = true)
    (hbound : ∀ s ∈ path, ∀ id, s.feature? = some id → ∃ f, ts.feature? id = some f)
    (ha : a ∈ doc.annotations) :
    Sees ts doc path a es ↔ es = encounters ts doc .selecting path a :=
  ⟨Sees.eq_encounters, fun h => h ▸ sees_encounters htypes hbound ha⟩

/-! ### What a predicate hears -/

namespace Encounter

/-- The observations before the first fault. -/
def beforeFault : List Encounter → List ( Annotation × Observation)
  | .observed a o :: rest => (a, o) :: beforeFault rest
  | _ => []

/-- The **questions** that are put to a predicate: about the observations before the first fault, in
order, up to and including the first one that it accepts. -/
def questions (q : Observation → Annotation → Bool) (es : List Encounter) : List Consultation :=
  let all := (beforeFault es).map fun (a, o) => ⟨a, o, q o a⟩
  all.take (all.findIdx Consultation.answer + 1)

/-- All encounters are observations that the predicate does not accept. -/
def AllRejected (q : Observation → Annotation → Bool) (es : List Encounter) : Prop :=
  ∀ e ∈ es, ∃ a o, e = .observed a o ∧ q o a = false

/-- A **fault comes first**: before any observation that the predicate accepts. -/
def FaultFirst (q : Observation → Annotation → Bool) (es : List Encounter) (e : WalkError) : Prop :=
  ∃ before behind, es = before ++ .failed e :: behind ∧ AllRejected q before

/-- An observation is **accepted**, before there is a fault. -/
def Accepted (q : Observation → Annotation → Bool) (es : List Encounter) : Prop :=
  ∃ before a o behind, es = before ++ .observed a o :: behind ∧ AllRejected q before ∧ q o a = true

variable {o : Observation} {rest : List Encounter} {e e' : WalkError}

theorem allRejected_nil : AllRejected q [] := nofun

/-- All are rejected if the first is and the others are. -/
theorem allRejected_cons_observed :
    AllRejected q (.observed a o :: rest) ↔ q o a = false ∧ AllRejected q rest := by
  rw [AllRejected, List.forall_mem_cons]
  refine and_congr_left fun _ => ⟨?_, fun h => ⟨a, o, rfl, h⟩⟩
  rintro ⟨b, p, heq, h⟩
  obtain ⟨rfl, rfl⟩ := Encounter.observed.inj heq
  exact h

/-- A fault is no rejected observation. -/
theorem not_allRejected_cons_failed : ¬ AllRejected q (.failed e :: rest) := by
  intro h
  obtain ⟨a, o, heq, -⟩ := h _ List.mem_cons_self
  cases heq

/-- A fault that is met at once is the first. -/
theorem faultFirst_cons_failed : FaultFirst q (.failed e' :: rest) e ↔ e' = e := by
  constructor
  · rintro ⟨before, behind, heq, hrejected⟩
    cases before with
    | nil => exact Encounter.failed.inj (List.cons.inj heq).1
    | cons first before =>
        obtain ⟨rfl, -⟩ := List.cons.inj heq
        exact absurd hrejected not_allRejected_cons_failed
  · rintro rfl
    exact ⟨[], rest, rfl, allRejected_nil⟩

/-- A fault comes first behind an observation if that is rejected. -/
theorem faultFirst_cons_observed :
    FaultFirst q (.observed a o :: rest) e ↔ q o a = false ∧ FaultFirst q rest e := by
  constructor
  · rintro ⟨before, behind, heq, hrejected⟩
    cases before with
    | nil => cases (List.cons.inj heq).1
    | cons first before =>
        obtain ⟨rfl, rfl⟩ := List.cons.inj heq
        obtain ⟨hq, hrejected⟩ := allRejected_cons_observed.mp hrejected
        exact ⟨hq, before, behind, rfl, hrejected⟩
  · rintro ⟨hq, before, behind, rfl, hrejected⟩
    exact ⟨.observed a o :: before, behind, rfl, allRejected_cons_observed.mpr ⟨hq, hrejected⟩⟩

/-- Where nothing is met, there is no fault. -/
theorem not_faultFirst_nil : ¬ FaultFirst q [] e := by
  rintro ⟨before, behind, heq, -⟩
  simp at heq

/-- An observation is accepted, or it is rejected and one behind it is accepted. -/
theorem accepted_cons_observed :
    Accepted q (.observed a o :: rest) ↔ q o a = true ∨ (q o a = false ∧ Accepted q rest) := by
  constructor
  · rintro ⟨before, b, p, behind, heq, hrejected, hq⟩
    cases before with
    | nil =>
        obtain ⟨rfl, rfl⟩ := Encounter.observed.inj (List.cons.inj heq).1
        exact Or.inl hq
    | cons first before =>
        obtain ⟨rfl, rfl⟩ := List.cons.inj heq
        obtain ⟨hfirst, hrejected⟩ := allRejected_cons_observed.mp hrejected
        exact Or.inr ⟨hfirst, before, b, p, behind, rfl, hrejected, hq⟩
  · rintro (hq | ⟨hfirst, before, b, p, behind, rfl, hrejected, hq⟩)
    · exact ⟨[], a, o, rest, rfl, allRejected_nil, hq⟩
    · exact ⟨.observed a o :: before, b, p, behind, rfl,
        allRejected_cons_observed.mpr ⟨hfirst, hrejected⟩, hq⟩

/-- Nothing behind a fault is accepted. -/
theorem not_accepted_cons_failed : ¬ Accepted q (.failed e :: rest) := by
  rintro ⟨before, a, o, behind, heq, hrejected, -⟩
  cases before with
  | nil => cases (List.cons.inj heq).1
  | cons first before =>
      obtain ⟨rfl, -⟩ := List.cons.inj heq
      exact not_allRejected_cons_failed hrejected

/-- Where nothing is met, nothing is accepted. -/
theorem not_accepted_nil : ¬ Accepted q [] := by
  rintro ⟨before, a, o, behind, heq, -⟩
  simp at heq

/-- **What is asked about the encounters of one root.** -/
theorem consultations_fst (q : Observation → Annotation → Bool) (es : List Encounter) :
    (consultations q es).1 = questions q es := by
  induction es with
  | nil => rfl
  | cons first rest ih =>
      cases first with
      | failed e => rfl
      | observed a o =>
          rw [consultations]
          cases hq : q o a with
          | true => simp [questions, beforeFault, hq, List.findIdx_cons]
          | false => simp [questions, beforeFault, hq, List.findIdx_cons, ih]

/-- Asking fails if and only if a fault comes first. -/
theorem consultations_eq_error_iff :
    (consultations q es).2 = .error e ↔ FaultFirst q es e := by
  induction es with
  | nil => exact iff_of_false nofun not_faultFirst_nil
  | cons first rest ih =>
      cases first with
      | failed e' =>
          rw [faultFirst_cons_failed, consultations, Except.error.injEq]
      | observed a o =>
          rw [faultFirst_cons_observed, consultations, ← ih]
          cases hq : q o a with
          | true => simp
          | false => simp

/-- Asking ends with yes if and only if an observation is accepted. -/
theorem consultations_eq_true_iff : (consultations q es).2 = .ok true ↔ Accepted q es := by
  induction es with
  | nil => exact iff_of_false (by simp [consultations]) not_accepted_nil
  | cons first rest ih =>
      cases first with
      | failed e => exact iff_of_false (by simp [consultations]) not_accepted_cons_failed
      | observed a o =>
          rw [accepted_cons_observed, consultations, ← ih]
          cases hq : q o a with
          | true => simp
          | false => simp

end Encounter

open Encounter

/-! ### The roots in turn -/

/-- **The roots in turn, up to the first one with a fault.** Either there is such a root, and nothing
is asked of those behind it, or there is none, and the roots of which an observation is accepted are
kept. -/
theorem verdicts_cases (q : Observation → Annotation → Bool) (meets : Annotation → List Encounter)
    (as : List Annotation) :
    (∃ before a behind e, as = before ++ a :: behind ∧
      (∀ b ∈ before, ∀ e', ¬ FaultFirst q (meets b) e') ∧ FaultFirst q (meets a) e ∧
      verdicts q meets as =
        ((before ++ [a]).flatMap fun b => questions q (meets b), .error e)) ∨
    ((∀ b ∈ as, ∀ e, ¬ FaultFirst q (meets b) e) ∧
      ∃ kept, verdicts q meets as = (as.flatMap fun b => questions q (meets b), .ok kept) ∧
        ∀ b, b ∈ kept ↔ b ∈ as ∧ Accepted q (meets b)) := by
  induction as with
  | nil => exact Or.inr ⟨nofun, [], rfl, by simp⟩
  | cons a rest ih =>
      rw [verdicts]
      rcases hconsult : consultations q (meets a) with ⟨asked, outcome⟩
      have hasked : asked = questions q (meets a) :=
        (congrArg Prod.fst hconsult).symm.trans (consultations_fst q (meets a))
      rcases outcome with e | satisfied
      · -- the selection ends here
        have hfault : FaultFirst q (meets a) e :=
          consultations_eq_error_iff.mp (congrArg Prod.snd hconsult)
        refine Or.inl ⟨[], a, rest, e, rfl, nofun, hfault, ?_⟩
        simp [hasked]
      · have hnone (e : WalkError) : ¬ FaultFirst q (meets a) e := by
          rw [← consultations_eq_error_iff, hconsult]
          simp
        have haccepted : satisfied = true ↔ Accepted q (meets a) := by
          rw [← consultations_eq_true_iff, hconsult, Except.ok.injEq]
        obtain ⟨before, b, behind, e, rfl, hbefore, hfault, hmore⟩ | ⟨hrest, kept, hmore, hkept⟩ :=
          ih
        · refine Or.inl ⟨a :: before, b, behind, e, rfl,
            List.forall_mem_cons.mpr ⟨hnone, hbefore⟩, hfault, ?_⟩
          simp [hmore, hasked, Except.map]
        · refine Or.inr ⟨List.forall_mem_cons.mpr ⟨hnone, hrest⟩,
            if satisfied then a :: kept else kept, ?_, fun b => ?_⟩
          · simp [hmore, hasked, Except.map]
          · cases satisfied with
            | true =>
                have ha := haccepted.mp rfl
                simp only [if_true, List.mem_cons, hkept]
                constructor
                · rintro (rfl | ⟨hb, h⟩)
                  · exact ⟨Or.inl rfl, ha⟩
                  · exact ⟨Or.inr hb, h⟩
                · rintro ⟨rfl | hb, h⟩
                  · exact Or.inl rfl
                  · exact Or.inr ⟨hb, h⟩
            | false =>
                have ha : ¬ Accepted q (meets a) := fun h => Bool.noConfusion (haccepted.mpr h)
                simp only [Bool.false_eq_true, if_false, List.mem_cons, hkept]
                constructor
                · rintro ⟨hb, h⟩
                  exact ⟨Or.inr hb, h⟩
                · rintro ⟨rfl | hb, h⟩
                  · exact absurd h ha
                  · exact ⟨hb, h⟩

/-! ### Selecting -/

/-- What is asked and kept depends on what the roots at hand meet. -/
theorem verdicts_congr {meets meets' : Annotation → List Encounter} {as : List Annotation}
    (h : ∀ a ∈ as, meets a = meets' a) : verdicts q meets as = verdicts q meets' as := by
  induction as with
  | nil => rfl
  | cons a rest ih =>
      obtain ⟨ha, hrest⟩ := List.forall_mem_cons.mp h
      rw [verdicts, verdicts, ha, ih hrest]

/-- **What a selection asks, when it fails, and what it selects.** From each annotation exactly one
list is seen along a resolved path. For each of the roots that exist, in turn, the predicate is asked
about the observations in order, up to and including the first one that it accepts. The selection
fails exactly if from some root a fault comes before any accepted observation, with the first fault of
the first such root, behind which nothing is asked. Otherwise it selects the roots of which an
observation is accepted, each once and in order. -/
theorem select_observations (ds : List Declaration) {ts : TypeSystem} (hts : .declared ds = ts)
    (text : String) (cs : List Document.Change) {doc : Document} (hdoc : .changed text cs = doc)
    (htypes : ∀ a ∈ doc.annotations, ts.hasType a.type = true) {start? : Option TypeId}
    {raw : List String} {p : FeaturePath} (hp : FeaturePath.resolve ts start? raw = .ok p)
    (roots : List AnnotationId) (q : Observation → Annotation → Bool) :
    (∀ a ∈ doc.annotations, ∃! es, Sees ts doc p.segments a es) ∧
      ∀ meets : Annotation → List Encounter,
        (∀ a ∈ roots.filterMap doc.find?, Sees ts doc p.segments a (meets a)) →
        ((∃ e, (select ts doc roots p.segments q).outcome = .error e) ↔
          ∃ a ∈ roots.filterMap doc.find?, ∃ e, FaultFirst q (meets a) e) ∧
        (∀ e, (select ts doc roots p.segments q).outcome = .error e →
          ∃ before a behind, roots.filterMap doc.find? = before ++ a :: behind ∧
            (∀ b ∈ before, ∀ e', ¬ FaultFirst q (meets b) e') ∧ FaultFirst q (meets a) e ∧
            (select ts doc roots p.segments q).asked =
              (before ++ [a]).flatMap fun b => questions q (meets b)) ∧
        ∀ found, (select ts doc roots p.segments q).outcome = .ok found →
          (select ts doc roots p.segments q).asked =
            (roots.filterMap doc.find?).flatMap (fun b => questions q (meets b)) ∧
          found.Pairwise (fun a b => a.compare b = .lt) ∧
          ∀ b, b ∈ found ↔ b ∈ roots.filterMap doc.find? ∧ Accepted q (meets b) := by
  have hwf : doc.WellFormed := hdoc ▸ Document.wellFormed_changed text cs
  have hconsistent : ts.Consistent := hts ▸ TypeSystem.consistent_declared ds
  have hbound : ∀ s ∈ p.segments, ∀ id, s.feature? = some id → ∃ f, ts.feature? id = some f :=
    fun s hs id hid => FeaturePath.exists_feature hconsistent hp hs hid
  refine ⟨fun a ha => ?_, fun meets hmeets => ?_⟩
  · exact ⟨_, sees_encounters htypes hbound ha, fun es hes => hes.eq_encounters⟩
  have hverdicts : verdicts q (encounters ts doc .selecting p.segments)
      (roots.filterMap doc.find?) = verdicts q meets (roots.filterMap doc.find?) :=
    verdicts_congr fun a ha => (hmeets a ha).eq_encounters.symm
  rw [select_eq, hverdicts]
  obtain ⟨before, a, behind, e, hroots, hbefore, hfault, hall⟩ | ⟨hnone, kept, hall, hkept⟩ :=
    verdicts_cases q meets (roots.filterMap doc.find?)
  · have ha : a ∈ roots.filterMap doc.find? := by
      rw [hroots]
      exact List.mem_append_right before List.mem_cons_self
    rw [hall]
    refine ⟨iff_of_true ⟨e, rfl⟩ ⟨a, ha, e, hfault⟩, fun e' he => ?_, nofun⟩
    obtain rfl : e = e' := Except.error.inj he
    exact ⟨before, a, behind, hroots, hbefore, hfault, rfl⟩
  · have hmem : ∀ a ∈ kept, a ∈ doc.annotations := by
      intro a ha
      obtain ⟨id, -, hfind⟩ := List.mem_filterMap.mp ((hkept a).mp ha).1
      exact List.mem_of_getElem? hfind
    rw [hall]
    refine ⟨iff_of_false nofun ?_, nofun, fun found hfound => ?_⟩
    · rintro ⟨a, ha, e, hfault⟩
      exact hnone a ha e hfault
    · obtain rfl : inOrder kept = found := Except.ok.inj hfound
      refine ⟨rfl, pairwise_inOrder kept, fun b => ?_⟩
      rw [hwf.mem_inOrder_iff hmem, hkept]

/-! ### A document -/

namespace Sample

/-- Two mentions, each with both among its others; the next one of the earlier mention is a number,
which is no annotation to go on from. -/
def spoiled : Document :=
  .changed "Ann met her" [.annotate ⟨2⟩ 0 3, .annotate ⟨1⟩ 8 11,
    .setValue ⟨0⟩ ⟨0⟩ (.scalar (.integer 7)), .setValue ⟨1⟩ ⟨0⟩ (.reference ⟨1⟩),
    .setValue ⟨0⟩ ⟨1⟩ (.array [.reference ⟨1⟩, .reference ⟨0⟩]),
    .setValue ⟨1⟩ ⟨1⟩ (.array [.reference ⟨0⟩, .reference ⟨1⟩])]

/-- A path to the texts of the next mentions of the others. -/
def toNextTexts : List Segment :=
  [.named "others" ⟨1⟩, .unbound "next" none, .unbound "ct" none]

/-- Whether a text is seen. -/
def isText (o : Observation) (_ : Annotation) : Bool := o.string?.isSome

end Sample

/-- From the earlier mention a text is accepted before the fault, from the later one the fault comes
first; so the selection asks once and fails at the later mention. -/
theorem select_spoiled :
    (∃ found, (select (.declared Sample.mentions) Sample.spoiled [⟨0⟩] Sample.toNextTexts
        Sample.isText).outcome = .ok found ∧ found.map Annotation.id = [⟨0⟩]) ∧
      (select (.declared Sample.mentions) Sample.spoiled [⟨0⟩, ⟨7⟩, ⟨1⟩, ⟨0⟩] Sample.toNextTexts
        Sample.isText).asked.map (fun c => (c.holder.id, c.answer)) = [(⟨1⟩, true)] ∧
      ∃ a ∈ [⟨0⟩, ⟨7⟩, ⟨1⟩, ⟨0⟩].filterMap Sample.spoiled.find?,
        FaultFirst Sample.isText
          (encounters (.declared Sample.mentions) Sample.spoiled .selecting Sample.toNextTexts a)
          ⟨"demo.Person", "next", "Integer"⟩ := by
  have htypes : ∀ a ∈ Sample.spoiled.annotations,
      (TypeSystem.declared Sample.mentions).hasType a.type = true := by
    decide +kernel
  have hpath : FeaturePath.resolve (.declared Sample.mentions) (some ⟨1⟩)
      ["others", "next", "ct"] = .ok ⟨some ⟨1⟩, Sample.toNextTexts⟩ := by
    decide +kernel
  have hdoc : Document.changed _ _ = Sample.spoiled := rfl
  have hids : (select (.declared Sample.mentions) Sample.spoiled [⟨0⟩] Sample.toNextTexts
      Sample.isText).outcome.map (·.map Annotation.id) = .ok [⟨0⟩] := by
    decide +kernel
  have herror : (select (.declared Sample.mentions) Sample.spoiled [⟨0⟩, ⟨7⟩, ⟨1⟩, ⟨0⟩]
      Sample.toNextTexts Sample.isText).outcome.map (·.map Annotation.id) =
        .error ⟨"demo.Person", "next", "Integer"⟩ := by
    decide +kernel
  obtain ⟨hseen, hselect⟩ := select_observations Sample.mentions rfl _ _ hdoc htypes hpath
    [⟨0⟩, ⟨7⟩, ⟨1⟩, ⟨0⟩] Sample.isText
  obtain ⟨-, hfails, -⟩ := hselect
    (encounters (.declared Sample.mentions) Sample.spoiled .selecting Sample.toNextTexts)
    fun a ha => by
      obtain ⟨id, -, hfind⟩ := List.mem_filterMap.mp ha
      obtain ⟨es, hes, -⟩ := hseen a (List.mem_of_getElem? hfind)
      exact hes.eq_encounters ▸ hes
  refine ⟨?_, by decide +kernel, ?_⟩
  · cases hselected : (select (.declared Sample.mentions) Sample.spoiled [⟨0⟩] Sample.toNextTexts
        Sample.isText).outcome with
    | error e => simp [hselected, Except.map] at hids
    | ok found => exact ⟨found, rfl, by simpa [hselected, Except.map] using hids⟩
  · cases hfailed : (select (.declared Sample.mentions) Sample.spoiled [⟨0⟩, ⟨7⟩, ⟨1⟩, ⟨0⟩]
        Sample.toNextTexts Sample.isText).outcome with
    | ok found => simp [hfailed, Except.map] at herror
    | error e =>
        obtain rfl : e = ⟨"demo.Person", "next", "Integer"⟩ := by
          simpa [hfailed, Except.map] using herror
        obtain ⟨before, a, behind, hroots, -, hfault, -⟩ := hfails _ hfailed
        refine ⟨a, ?_, hfault⟩
        rw [hroots]
        exact List.mem_append_right before List.mem_cons_self

end AnnotatedText
