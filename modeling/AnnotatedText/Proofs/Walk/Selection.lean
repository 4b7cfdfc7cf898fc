import AnnotatedText.Proofs.Document.Order

/-!
# Selections

A selection walks from its roots in turn and keeps those that satisfy its predicate. What it asks and
what it keeps are read off the encounters of each root here, without the walk: `verdicts` puts the
predicate to the observations of one root after the other, and stops for good at the first fault.

Where no root meets a fault, what is selected are the roots that satisfy the predicate, in order; and
where the roots stand in order already, these are the roots filtered.

## Main results

* `select_eq`: a selection is the verdicts on its roots.
* `verdicts_eq_filter`: without a fault the roots are filtered.
* `select_scalar_feature`: selecting by a feature with scalar values.
-/

namespace AnnotatedText

/-- The questions that are put to a predicate about annotations in turn, of which each meets the given
encounters, and the annotations that satisfy it, unless there is a fault. -/
def verdicts (q : Observation → Annotation → Bool) (meets : Annotation → List Encounter) :
    List Annotation → List Consultation × Except WalkError (List Annotation)
  | [] => ([], .ok [])
  | a :: rest =>
    match consultations q (meets a) with
    | (asked, .error e) => (asked, .error e)
    | (asked, .ok satisfied) =>
      let (more, kept) := verdicts q meets rest
      (asked ++ more, kept.map fun kept => if satisfied then a :: kept else kept)

variable {ts : TypeSystem} {doc : Document} {q : Observation → Annotation → Bool}

/-- What a walk followed by another does, by cases on how the first one ends. -/
theorem Walk.run_bind {σ α β : Type} (first : Walk σ α) (next : α → Walk σ β) (notes : σ) :
    (first >>= next).run.run notes =
      match (first.run.run notes : Except WalkError α × σ) with
      | (.error e, notes) => (.error e, notes)
      | (.ok x, notes) => (next x).run.run notes := by
  rw [ExceptT.run_bind, StateT.run_bind]
  rcases first.run.run notes with ⟨e | x, after⟩
  · rfl
  · rfl

/-- Going on with the other roots. The roots kept so far are noted last first, as are the questions
asked so far. -/
theorem run_filterAuxM (path : List Segment) (as kept : List Annotation)
    (asked : List Consultation) :
    (as.filterAuxM (walk ts doc .selecting (consult q) path) kept).run.run asked =
      ((verdicts q (encounters ts doc .selecting path) as).2.map fun more => more.reverse ++ kept,
        (verdicts q (encounters ts doc .selecting path) as).1.reverse ++ asked) := by
  induction as generalizing kept asked with
  | nil => rfl
  | cons a rest ih =>
      rw [List.filterAuxM, Walk.run_bind, walk_eq_anyM, run_consult, verdicts]
      rcases hasked : consultations q (encounters ts doc .selecting path a) with
        ⟨questions, e | satisfied⟩
      · rfl
      · simp only [ih]
        cases (verdicts q (encounters ts doc .selecting path) rest).2 with
        | error e => simp [Except.map]
        | ok more =>
            cases satisfied with
            | false => simp [Except.map]
            | true => simp [Except.map]

/-- **A selection is the verdicts on its roots.** -/
theorem select_eq (ts : TypeSystem) (doc : Document) (roots : List AnnotationId)
    (path : List Segment) (q : Observation → Annotation → Bool) :
    select ts doc roots path q =
      ⟨(verdicts q (encounters ts doc .selecting path) (roots.filterMap doc.find?)).1,
        (verdicts q (encounters ts doc .selecting path) (roots.filterMap doc.find?)).2.map
          inOrder⟩ := by
  rw [select, List.filterM]
  simp only [Walk.run_bind, run_filterAuxM]
  cases (verdicts q (encounters ts doc .selecting path) (roots.filterMap doc.find?)).2 with
  | error e => simp [Except.map]
  | ok kept =>
      simp only [Except.map, List.append_nil, List.reverse_reverse, ExceptT.run_pure,
        StateT.run_pure]
      show (⟨List.reverse (List.reverse _), _⟩ : Selection) = _
      rw [List.reverse_reverse]

/-! ### Without a fault -/

/-- **Without a fault the roots are filtered.** -/
theorem verdicts_eq_filter {meets : Annotation → List Encounter} {p : Annotation → Bool}
    {as : List Annotation} (h : ∀ a ∈ as, (consultations q (meets a)).2 = .ok (p a)) :
    (verdicts q meets as).2 = .ok (as.filter p) := by
  induction as with
  | nil => rfl
  | cons a rest ih =>
      obtain ⟨ha, hrest⟩ := List.forall_mem_cons.mp h
      rw [verdicts]
      rcases hasked : consultations q (meets a) with ⟨questions, e | satisfied⟩
      · rw [hasked] at ha
        cases ha
      · rw [hasked] at ha
        obtain rfl : satisfied = p a := Except.ok.inj ha
        simp only [ih hrest, Except.map, List.filter_cons]

/-- **Selecting by a feature with scalar values** puts the value of the feature to the predicate.
Roots that stand in order stay in it. -/
theorem select_scalar_feature {roots : List AnnotationId} {f : Feature}
    (hf : ts.feature? f.id = some f) (hrange : f.range.isScalar = true)
    (hroots : (roots.filterMap doc.find?).Pairwise fun a b => a.compare b = .lt) (name : String)
    (q : Observation → Annotation → Bool) :
    (select ts doc roots [.named name f.id] q).outcome =
      .ok ((roots.filterMap doc.find?).filter fun a => q (.ofValue? (a.value? f.id) none) a) := by
  have hmeets (a : Annotation) : encounters ts doc .selecting [.named name f.id] a =
      [.observed a (.ofValue? (a.value? f.id) none)] := by
    rw [encounters, Segment.access, hf]
    exact if_pos (Or.inl hrange)
  have hasked (a : Annotation) :
      (consultations q (encounters ts doc .selecting [.named name f.id] a)).2 =
        .ok (q (.ofValue? (a.value? f.id) none) a) := by
    rw [hmeets, consultations]
    cases hq : q (.ofValue? (a.value? f.id) none) a with
    | false => rfl
    | true => rfl
  have hsorted := hroots.filter fun a => q (.ofValue? (a.value? f.id) none) a
  rw [select_eq, verdicts_eq_filter fun a _ => hasked a, Except.map, inOrder_eq_self hsorted]

end AnnotatedText
