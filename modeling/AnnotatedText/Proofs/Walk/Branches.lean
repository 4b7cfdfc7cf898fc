import AnnotatedText.Proofs.Document.Order
import AnnotatedText.Proofs.Path.Binding

/-!
# Branches of a walk

What a walk gathers is said here without the walk. A segment leads **through** a feature, the one it
is bound to or the one that the type of the annotation at hand sees under its name; the value of the
feature leads to annotations, and to each of them there is a **step**. Steps along the segments make
a **branch**. At the annotation that a branch has reached with the rest of the path it may end, or
fail at a value in its way, or go nowhere.

Every encounter of a walk is met at a branch, and at every branch that ends or fails there is an
encounter, `mem_encounters_iff`, whatever circles the references of the document make: the path gets
shorter with every step.

## Main results

* `mem_encounters_iff`: a walk meets what there is to meet on its branches.
* `collect_branches`: what is collected are the annotations at which branches end, and collecting
  fails exactly if a branch does.
-/

namespace AnnotatedText

/-! ### Branches -/

/-- A segment leads **through** a feature from an annotation, with an index or without one. -/
inductive Segment.Through (ts : TypeSystem) (a : Annotation) :
    Segment → Feature → Option Nat → Prop
  | named (name : String) {id : FeatureId} {f : Feature} (h : ts.feature? id = some f) :
      Through ts a (.named name id) f none
  | indexed (name : String) {id : FeatureId} {f : Feature} (i : Nat)
      (h : ts.feature? id = some f) : Through ts a (.indexed name id i) f (some i)
  | unbound {name : String} {f : Feature} (index? : Option Nat)
      (h : ts.featureNamed? a.type name = some f) : Through ts a (.unbound name index?) f index?

/-- A value **leads to** an annotation: as a reference to it, or as an array by the reference at the
index or, without an index, by any of its references. -/
inductive Value.LeadsTo : Value → Option Nat → AnnotationId → Prop
  | reference (id : AnnotationId) (index? : Option Nat) : LeadsTo (.reference id) index? id
  | element {items : List Value} {i : Nat} {id : AnnotationId}
      (h : items[i]? = some (.reference id)) : LeadsTo (.array items) (some i) id
  | every {items : List Value} {id : AnnotationId} (h : .reference id ∈ items) :
      LeadsTo (.array items) none id

/-- A **step** along a segment, through a feature whose range is not one of scalars. -/
inductive Step (ts : TypeSystem) (doc : Document) (s : Segment) (a b : Annotation) : Prop
  | intro {f : Feature} {index? : Option Nat} {v : Value} {id : AnnotationId}
      (hthrough : s.Through ts a f index?) (hrange : f.range.isScalar = false)
      (hvalue : a.value? f.id = some v) (hleads : v.LeadsTo index? id)
      (hfind : doc.find? id = some b)

/-- A **branch** along a path from an annotation has reached another one with the rest of the
path. -/
inductive Branch (ts : TypeSystem) (doc : Document) :
    List Segment → Annotation → List Segment → Annotation → Prop
  | here (path : List Segment) (a : Annotation) : Branch ts doc path a path a
  | step {s : Segment} {tail rest : List Segment} {a b c : Annotation}
      (h : Step ts doc s a b) (hrest : Branch ts doc tail b rest c) :
      Branch ts doc (s :: tail) a rest c

/-- A branch **ends** at an annotation with the rest of the path: nothing is left of it, or the
covered text is next, or a feature whose range is one of scalars. -/
inductive EndsAt (ts : TypeSystem) (a : Annotation) : List Segment → Prop
  | exhausted : EndsAt ts a []
  | coveredText (tail : List Segment) : EndsAt ts a (.coveredText :: tail)
  | shortName (h : ts.featureNamed? a.type coveredTextShortName = none) :
      EndsAt ts a [.unbound coveredTextShortName none]
  | scalar {s : Segment} {f : Feature} {index? : Option Nat} (tail : List Segment)
      (h : s.Through ts a f index?) (hrange : f.range.isScalar = true) : EndsAt ts a (s :: tail)

/-- A branch **fails** at an annotation with the rest of the path: the feature that is next holds a
scalar against its range. The error names the type of the annotation, the feature and the kind of
the scalar. -/
inductive FailsAt (ts : TypeSystem) (a : Annotation) : List Segment → WalkError → Prop
  | scalar {s : Segment} {f : Feature} {index? : Option Nat} {v : Scalar} {entry : TypeEntry}
      (tail : List Segment) (h : s.Through ts a f index?) (hrange : f.range.isScalar = false)
      (hvalue : a.value? f.id = some (.scalar v))
      (htype : ts.types[a.type.index]? = some entry) :
      FailsAt ts a (s :: tail) ⟨entry.name, f.name, v.kind.name⟩

/-- A branch from one of the roots that exist. -/
def BranchFrom (ts : TypeSystem) (doc : Document) (roots : List AnnotationId)
    (path rest : List Segment) (b : Annotation) : Prop :=
  ∃ root ∈ roots, ∃ a, doc.find? root = some a ∧ Branch ts doc path a rest b

variable {ts : TypeSystem} {doc : Document} {s : Segment} {a b : Annotation}
  {path tail rest : List Segment}

/-- A branch stays in the document. -/
theorem Branch.mem (h : Branch ts doc path a rest b) (ha : a ∈ doc.annotations) :
    b ∈ doc.annotations := by
  induction h with
  | here => exact ha
  | step hstep hrest ih =>
      obtain ⟨-, -, -, -, hfind⟩ := hstep
      exact ih (List.mem_of_getElem? hfind)

/-! ### One segment -/

namespace Segment

variable {f : Feature} {index? : Option Nat} {isLast : Bool}

/-- A segment is accessed as a feature if and only if it leads through that feature. -/
theorem access_eq_feature_iff :
    s.access ts a isLast = .feature f index? ↔ s.Through ts a f index? := by
  constructor
  · intro h
    cases s with
    | coveredText => cases h
    | named name id =>
        cases hf : ts.feature? id with
        | none => simp [access, hf] at h
        | some g =>
            obtain ⟨rfl, rfl⟩ : g = f ∧ none = index? := by simpa [access, hf] using h
            exact .named name hf
    | indexed name id i =>
        cases hf : ts.feature? id with
        | none => simp [access, hf] at h
        | some g =>
            obtain ⟨rfl, rfl⟩ : g = f ∧ some i = index? := by simpa [access, hf] using h
            exact .indexed name i hf
    | unbound name i =>
        rw [access, Access.ofName] at h
        cases hf : ts.featureNamed? a.type name with
        | none =>
            simp only [hf] at h
            split at h <;> cases h
        | some g =>
            obtain ⟨rfl, rfl⟩ : g = f ∧ i = index? := by simpa [hf] using h
            exact .unbound i hf
  · intro h
    cases h with
    | named name hf => simp [access, hf]
    | indexed name i hf => simp [access, hf]
    | unbound i hf => simp [access, Access.ofName, hf]

/-- A path ends at the annotation whose text it accesses. -/
theorem endsAt_of_access_eq_text (h : s.access ts a tail.isEmpty = .text) :
    EndsAt ts a (s :: tail) := by
  cases s with
  | coveredText => exact .coveredText tail
  | named name id => cases hf : ts.feature? id <;> simp [access, hf] at h
  | indexed name id i => cases hf : ts.feature? id <;> simp [access, hf] at h
  | unbound name i =>
      rw [access, Access.ofName] at h
      cases hf : ts.featureNamed? a.type name with
      | some g => simp [hf] at h
      | none =>
          obtain ⟨rfl, rfl, rfl⟩ : name = coveredTextShortName ∧ i = none ∧ tail = [] := by
            simpa [hf] using h
          exact .shortName hf

end Segment

/-- What a value leads to are its targets. -/
theorem Value.leadsTo_iff {v : Value} {index? : Option Nat} {id : AnnotationId} :
    v.LeadsTo index? id ↔ ∃ ids, v.targets? index? = some ids ∧ id ∈ ids := by
  constructor
  · intro h
    cases h with
    | reference => exact ⟨[id], rfl, List.mem_singleton.mpr rfl⟩
    | @element items i _ h =>
        refine ⟨_, rfl, ?_⟩
        rw [h]
        exact List.mem_singleton.mpr rfl
    | @every items _ h => exact ⟨_, rfl, List.mem_filterMap.mpr ⟨_, h, rfl⟩⟩
  · rintro ⟨ids, hids, hid⟩
    have hreference {v : Value} (h : v.reference? = some id) : v = .reference id := by
      cases v with
      | reference id' => rw [Option.some.inj h]
      | scalar s => cases h
      | array items => cases h
    cases v with
    | scalar s => cases hids
    | reference id' =>
        obtain rfl := Option.some.inj hids
        obtain rfl := List.mem_singleton.mp hid
        exact .reference id index?
    | array items =>
        cases index? with
        | none =>
            obtain rfl := Option.some.inj hids
            obtain ⟨item, hitem, hid⟩ := List.mem_filterMap.mp hid
            exact .every (hreference hid ▸ hitem)
        | some i =>
            obtain rfl := Option.some.inj hids
            obtain ⟨item, hitem, hid⟩ := Option.bind_eq_some_iff.mp (Option.mem_toList.mp hid)
            exact .element (hreference hid ▸ hitem)

/-- A value has no targets if and only if it is a scalar. -/
theorem Value.targets?_eq_none_iff {v : Value} {index? : Option Nat} :
    v.targets? index? = none ↔ ∃ x, v = .scalar x := by
  cases v with
  | scalar x => simp [targets?]
  | reference id => simp [targets?]
  | array items => cases index? <;> simp [targets?]

/-! ### Encounters -/

/-- What is **met** at an annotation with the rest of the path, before any step. -/
inductive Met (ts : TypeSystem) (doc : Document) (a : Annotation) :
    List Segment → Encounter → Prop
  | exhausted : Met ts doc a [] (.observed a (.text (doc.coveredText a)))
  | text {s : Segment} {tail : List Segment} (h : s.access ts a tail.isEmpty = .text) :
      Met ts doc a (s :: tail) (.observed a (.text (doc.coveredText a)))
  | scalar {s : Segment} {f : Feature} {index? : Option Nat} (tail : List Segment)
      (h : s.Through ts a f index?) (hrange : f.range.isScalar = true) :
      Met ts doc a (s :: tail) (.observed a (.ofValue? (a.value? f.id) index?))
  | fault {s : Segment} {f : Feature} {index? : Option Nat} {v : Scalar} (tail : List Segment)
      (h : s.Through ts a f index?) (hrange : f.range.isScalar = false)
      (hvalue : a.value? f.id = some (.scalar v)) :
      Met ts doc a (s :: tail) (.failed ⟨ts.typeName a.type, f.name, v.kind.name⟩)

/-- Where text is accessed, the text of the annotation is all that is met. -/
theorem encounters_of_text (h : s.access ts a tail.isEmpty = .text) :
    encounters ts doc .collecting (s :: tail) a = [.observed a (.text (doc.coveredText a))] := by
  rw [encounters, h]

section Through

variable {f : Feature} {index? : Option Nat} (h : s.Through ts a f index?)

include h

/-- Where a feature has a scalar range, its value is all that is met. -/
theorem encounters_of_scalar (hrange : f.range.isScalar = true) :
    encounters ts doc .collecting (s :: tail) a =
      [.observed a (.ofValue? (a.value? f.id) index?)] := by
  rw [encounters, Segment.access_eq_feature_iff.mpr h]
  simp only [hrange, true_or, if_true]

/-- Where a feature has another range, the walk goes on from the targets of its value, or fails if
that is a scalar. -/
theorem encounters_of_not_scalar (hrange : f.range.isScalar = false) :
    encounters ts doc .collecting (s :: tail) a =
      match a.value? f.id with
      | none => []
      | some v =>
        match v.targets? index? with
        | none => [.failed ⟨ts.typeName a.type, f.name, v.kindName⟩]
        | some ids =>
          (ids.filterMap doc.find?).flatMap fun next =>
            encounters ts doc .collecting tail next := by
  have hgo : ¬ (f.range.isScalar = true ∨
      (WalkMode.collecting = .selecting ∧ tail.isEmpty = true)) := by
    simp [hrange]
  rw [encounters, Segment.access_eq_feature_iff.mpr h]
  exact if_neg hgo

end Through

/-- What is met with a segment next is met before any step, or behind a step along it. -/
theorem mem_encounters_cons_iff {e : Encounter} :
    e ∈ encounters ts doc .collecting (s :: tail) a ↔
      Met ts doc a (s :: tail) e ∨
        ∃ b, Step ts doc s a b ∧ e ∈ encounters ts doc .collecting tail b := by
  constructor
  · intro he
    cases haccess : s.access ts a tail.isEmpty with
    | nowhere => simp [encounters, haccess] at he
    | text =>
        rw [encounters_of_text haccess] at he
        obtain rfl := List.mem_singleton.mp he
        exact Or.inl (.text haccess)
    | feature f index? =>
        have hthrough := Segment.access_eq_feature_iff.mp haccess
        cases hrange : f.range.isScalar with
        | true =>
            rw [encounters_of_scalar hthrough hrange] at he
            obtain rfl := List.mem_singleton.mp he
            exact Or.inl (.scalar tail hthrough hrange)
        | false =>
            rw [encounters_of_not_scalar hthrough hrange] at he
            cases hvalue : a.value? f.id with
            | none => simp [hvalue] at he
            | some v =>
                cases hids : v.targets? index? with
                | none =>
                    obtain ⟨x, rfl⟩ := Value.targets?_eq_none_iff.mp hids
                    simp only [hvalue, hids] at he
                    obtain rfl := List.mem_singleton.mp he
                    exact Or.inl (.fault tail hthrough hrange hvalue)
                | some ids =>
                    simp only [hvalue, hids] at he
                    obtain ⟨b, hb, he⟩ := List.mem_flatMap.mp he
                    obtain ⟨id, hid, hfind⟩ := List.mem_filterMap.mp hb
                    have hleads : v.LeadsTo index? id := Value.leadsTo_iff.mpr ⟨ids, hids, hid⟩
                    exact Or.inr ⟨b, .intro hthrough hrange hvalue hleads hfind, he⟩
  · rintro (hmet | ⟨b, hstep, he⟩)
    · cases hmet with
      | text h => simp [encounters_of_text h]
      | scalar tail h hrange => simp [encounters_of_scalar h hrange]
      | fault tail h hrange hvalue =>
          simp [encounters_of_not_scalar h hrange, hvalue, Value.targets?, Value.kindName]
    · obtain ⟨hthrough, hrange, hvalue, hleads, hfind⟩ := hstep
      obtain ⟨ids, hids, hid⟩ := Value.leadsTo_iff.mp hleads
      rw [encounters_of_not_scalar hthrough hrange]
      simp only [hvalue, hids]
      exact List.mem_flatMap.mpr ⟨b, List.mem_filterMap.mpr ⟨_, hid, hfind⟩, he⟩

/-- **A walk meets what there is to meet on its branches.** -/
theorem mem_encounters_iff {e : Encounter} :
    e ∈ encounters ts doc .collecting path a ↔
      ∃ rest b, Branch ts doc path a rest b ∧ Met ts doc b rest e := by
  induction path generalizing a with
  | nil =>
      rw [encounters, List.mem_singleton]
      constructor
      · rintro rfl
        exact ⟨[], a, .here [] a, .exhausted⟩
      · rintro ⟨rest, b, hbranch, hmet⟩
        cases hbranch
        cases hmet
        rfl
  | cons s tail ih =>
      rw [mem_encounters_cons_iff]
      constructor
      · rintro (hmet | ⟨b, hstep, he⟩)
        · exact ⟨s :: tail, a, .here _ a, hmet⟩
        · obtain ⟨rest, c, hbranch, hmet⟩ := ih.mp he
          exact ⟨rest, c, .step hstep hbranch, hmet⟩
      · rintro ⟨rest, c, hbranch, hmet⟩
        cases hbranch with
        | here => exact Or.inl hmet
        | step hstep hbranch => exact Or.inr ⟨_, hstep, ih.mpr ⟨rest, c, hbranch, hmet⟩⟩

/-- An observation is met exactly where a branch ends, and the holder is the annotation there. -/
theorem exists_met_observed_iff :
    (∃ o, Met ts doc a rest (.observed b o)) ↔ b = a ∧ EndsAt ts a rest := by
  constructor
  · rintro ⟨o, hmet⟩
    cases hmet with
    | exhausted => exact ⟨rfl, .exhausted⟩
    | text h => exact ⟨rfl, Segment.endsAt_of_access_eq_text h⟩
    | scalar tail h hrange => exact ⟨rfl, .scalar tail h hrange⟩
  · rintro ⟨rfl, hends⟩
    cases hends with
    | exhausted => exact ⟨_, .exhausted⟩
    | coveredText tail => exact ⟨_, .text rfl⟩
    | shortName h => exact ⟨_, .text (by simp [Segment.access, Access.ofName, h])⟩
    | scalar tail h hrange => exact ⟨_, .scalar tail h hrange⟩

/-- A fault is met exactly where a branch fails. -/
theorem met_failed_iff (htype : ts.hasType a.type = true) {e : WalkError} :
    Met ts doc a rest (.failed e) ↔ FailsAt ts a rest e := by
  obtain ⟨entry, hentry⟩ : ∃ entry, ts.types[a.type.index]? = some entry :=
    ⟨_, List.getElem?_eq_getElem (of_decide_eq_true htype)⟩
  have hname (other : TypeEntry) (h : ts.types[a.type.index]? = some other) :
      ts.typeName a.type = other.name := by
    rw [TypeSystem.typeName, h]
  constructor
  · intro hmet
    cases hmet with
    | fault tail h hrange hvalue =>
        rw [hname entry hentry]
        exact .scalar tail h hrange hvalue hentry
  · intro hfails
    cases hfails with
    | scalar tail h hrange hvalue hother =>
        rw [← hname _ hother]
        exact .fault tail h hrange hvalue

/-! ### Collecting -/

/-- The fault of the holders was met on the way. -/
theorem failed_mem_of_holders {es : List Encounter} {e : WalkError} (h : holders es = .error e) :
    .failed e ∈ es := by
  induction es with
  | nil => cases h
  | cons first rest ih =>
      cases first with
      | failed e' =>
          obtain rfl : e' = e := Except.error.inj h
          exact List.mem_cons_self
      | observed a o =>
          rw [holders] at h
          cases hrest : holders rest with
          | ok as => simp [hrest, Except.map] at h
          | error e' =>
              obtain rfl : e' = e := by simpa [hrest, Except.map] using h
              exact List.mem_cons_of_mem _ (ih hrest)

/-- Without a fault the holders are those of the observations. -/
theorem holders_eq_ok {es : List Encounter} {as : List Annotation} (h : holders es = .ok as) :
    (∀ e, .failed e ∉ es) ∧ ∀ b, b ∈ as ↔ ∃ o, .observed b o ∈ es := by
  induction es generalizing as with
  | nil =>
      obtain rfl := Except.ok.inj h
      simp
  | cons first rest ih =>
      cases first with
      | failed e => cases h
      | observed a o =>
          rw [holders] at h
          cases hrest : holders rest with
          | error e => simp [hrest, Except.map] at h
          | ok more =>
              obtain rfl : a :: more = as := by simpa [hrest, Except.map] using h
              obtain ⟨hfaults, hmem⟩ := ih hrest
              refine ⟨fun e he => ?_, fun b => ?_⟩
              · rcases List.mem_cons.mp he with he | he
                · cases he
                · exact hfaults e he
              · simp [hmem, exists_or]

/-- What there is to meet from all roots is met on the branches from those that exist. -/
theorem mem_flatMap_encounters_iff {roots : List AnnotationId} {e : Encounter} :
    e ∈ (roots.filterMap doc.find?).flatMap (encounters ts doc .collecting path) ↔
      ∃ rest b, BranchFrom ts doc roots path rest b ∧ Met ts doc b rest e := by
  rw [List.mem_flatMap]
  constructor
  · rintro ⟨a, ha, he⟩
    obtain ⟨root, hroot, hfind⟩ := List.mem_filterMap.mp ha
    obtain ⟨rest, b, hbranch, hmet⟩ := mem_encounters_iff.mp he
    exact ⟨rest, b, ⟨root, hroot, a, hfind, hbranch⟩, hmet⟩
  · rintro ⟨rest, b, ⟨root, hroot, a, hfind, hbranch⟩, hmet⟩
    exact ⟨a, List.mem_filterMap.mpr ⟨root, hroot, hfind⟩,
      mem_encounters_iff.mpr ⟨rest, b, hbranch, hmet⟩⟩

/-- A branch ends at an annotation of the document. -/
theorem BranchFrom.mem {roots : List AnnotationId} (h : BranchFrom ts doc roots path rest b) :
    b ∈ doc.annotations := by
  obtain ⟨root, -, a, hfind, hbranch⟩ := h
  exact hbranch.mem (List.mem_of_getElem? hfind)

/-- From the roots a fault is met exactly where a branch fails. -/
theorem failed_mem_flatMap_iff (htypes : ∀ a ∈ doc.annotations, ts.hasType a.type = true)
    {roots : List AnnotationId} {e : WalkError} :
    .failed e ∈ (roots.filterMap doc.find?).flatMap (encounters ts doc .collecting path) ↔
      ∃ rest b, BranchFrom ts doc roots path rest b ∧ FailsAt ts b rest e := by
  rw [mem_flatMap_encounters_iff]
  refine exists_congr fun rest => exists_congr fun b => and_congr_right fun hbranch => ?_
  exact met_failed_iff (htypes b hbranch.mem)

/-- From the roots the holder of an observation is an annotation at which a branch ends. -/
theorem exists_observed_mem_flatMap_iff {roots : List AnnotationId} :
    (∃ o, .observed b o ∈
      (roots.filterMap doc.find?).flatMap (encounters ts doc .collecting path)) ↔
      ∃ rest, BranchFrom ts doc roots path rest b ∧ EndsAt ts b rest := by
  constructor
  · rintro ⟨o, ho⟩
    obtain ⟨rest, a, hbranch, hmet⟩ := mem_flatMap_encounters_iff.mp ho
    obtain ⟨rfl, hends⟩ := exists_met_observed_iff.mp ⟨o, hmet⟩
    exact ⟨rest, hbranch, hends⟩
  · rintro ⟨rest, hbranch, hends⟩
    obtain ⟨o, hmet⟩ := exists_met_observed_iff.mpr ⟨rfl, hends⟩
    exact ⟨o, mem_flatMap_encounters_iff.mpr ⟨rest, b, hbranch, hmet⟩⟩

/-- Collecting fails with a fault that there is to meet. -/
theorem failed_mem_of_collect {roots : List AnnotationId} {e : WalkError}
    (h : collect ts doc roots path = .error e) :
    .failed e ∈ (roots.filterMap doc.find?).flatMap (encounters ts doc .collecting path) := by
  rw [collect_eq] at h
  cases hholders : holders ((roots.filterMap doc.find?).flatMap
    (encounters ts doc .collecting path)) with
  | ok as => simp [hholders, Except.map] at h
  | error e' =>
      obtain rfl : e' = e := by simpa [hholders, Except.map] using h
      exact failed_mem_of_holders hholders

/-- **What is collected** are the holders of the observations, if there is no fault among what there
is to meet. -/
theorem collect_eq_ok_iff (hwf : doc.WellFormed) {roots : List AnnotationId}
    {found : List Annotation} :
    collect ts doc roots path = .ok found ↔
      (∀ e, .failed e ∉
        (roots.filterMap doc.find?).flatMap (encounters ts doc .collecting path)) ∧
      found.Pairwise (fun a b => a.compare b = .lt) ∧
      ∀ b, b ∈ found ↔ ∃ o, .observed b o ∈
        (roots.filterMap doc.find?).flatMap (encounters ts doc .collecting path) := by
  rw [collect_eq]
  cases hholders : holders ((roots.filterMap doc.find?).flatMap
    (encounters ts doc .collecting path)) with
  | error e => exact iff_of_false nofun fun h => h.1 e (failed_mem_of_holders hholders)
  | ok as =>
      obtain ⟨hfaults, hmem⟩ := holders_eq_ok hholders
      have has : ∀ a ∈ as, a ∈ doc.annotations := by
        intro a ha
        obtain ⟨rest, hbranch, -⟩ := exists_observed_mem_flatMap_iff.mp ((hmem a).mp ha)
        exact hbranch.mem
      have hordered (b : Annotation) := (hwf.mem_inOrder_iff (b := b) has).trans (hmem b)
      constructor
      · intro h
        obtain rfl : inOrder as = found := Except.ok.inj h
        exact ⟨hfaults, pairwise_inOrder as, hordered⟩
      · rintro ⟨-, hascending, hfound⟩
        exact congrArg Except.ok (eq_of_ascending (pairwise_inOrder as) hascending fun b =>
          (hordered b).trans (hfound b).symm)

/-- The segment made for a feature is bound to it. -/
theorem Segment.feature?_ofFeature (r : Reference) (f : Feature) :
    (ofFeature r f).feature? = some f.id := by
  cases hindex : r.index? with
  | none => simp [ofFeature, hindex, feature?]
  | some i => simp [ofFeature, hindex, feature?]

/-- The feature to which a segment is bound early is declared. -/
theorem LatePath.exists_feature {cursor : Cursor} {early late : List Segment}
    (h : LatePath ts cursor early late) (hts : ts.Consistent) {s : Segment} (hs : s ∈ early)
    {id : FeatureId} (hid : s.feature? = some id) : ∃ f, ts.feature? id = some f := by
  induction h with
  | nil cursor => cases hs
  | cons hlate hend hrest ih =>
      rcases List.mem_cons.mp hs with rfl | hs
      · cases hlate with
        | @feature t r f hf =>
            rw [Segment.feature?_ofFeature] at hid
            obtain rfl : f.id = id := Option.some.inj hid
            exact ⟨f, hts.feature?_id (TypeSystem.featureNamed?_eq_some hf).1⟩
        | shortName => cases hid
        | text => cases hid
        | unbound => cases hid
      · exact ih hs

/-- The features to which a path is bound early are declared. -/
theorem FeaturePath.exists_feature (hts : ts.Consistent) {start? : Option TypeId}
    {raw : List String} {p : FeaturePath} (h : resolve ts start? raw = .ok p) {s : Segment}
    (hs : s ∈ p.segments) {id : FeatureId} (hid : s.feature? = some id) :
    ∃ f, ts.feature? id = some f := by
  rw [resolve] at h
  cases hsegments : resolveFrom ts (.ofStart start?) raw with
  | error e => simp [hsegments] at h
  | ok segments =>
      obtain rfl : ⟨start?, segments⟩ = p := by simpa [hsegments] using h
      obtain ⟨late, -, hlate⟩ := exists_late hsegments
      exact hlate.exists_feature hts hs hid

/-- **What is collected are the annotations at which branches end**, each once and in order, for
every resolved path, every document and all roots; and **collecting fails exactly if a branch does**,
with the error of such a branch. -/
theorem collect_branches (ds : List Declaration) {ts : TypeSystem} (hts : .declared ds = ts)
    (text : String) (cs : List Document.Change) {doc : Document} (hdoc : .changed text cs = doc)
    (htypes : ∀ a ∈ doc.annotations, ts.hasType a.type = true) {start? : Option TypeId}
    {raw : List String} {p : FeaturePath} (hp : FeaturePath.resolve ts start? raw = .ok p)
    (roots : List AnnotationId) :
    (∀ s ∈ p.segments, ∀ id, s.feature? = some id → ∃ f, ts.feature? id = some f) ∧
      (∀ e, collect ts doc roots p.segments = .error e →
        ∃ rest b, BranchFrom ts doc roots p.segments rest b ∧ FailsAt ts b rest e) ∧
      ((∃ e, collect ts doc roots p.segments = .error e) ↔
        ∃ e rest b, BranchFrom ts doc roots p.segments rest b ∧ FailsAt ts b rest e) ∧
      ∀ found, collect ts doc roots p.segments = .ok found →
        found.Pairwise (fun a b => a.compare b = .lt) ∧
        ∀ b, b ∈ found ↔
          ∃ rest, BranchFrom ts doc roots p.segments rest b ∧ EndsAt ts b rest := by
  have hwf : doc.WellFormed := hdoc ▸ Document.wellFormed_changed text cs
  have hconsistent : ts.Consistent := hts ▸ TypeSystem.consistent_declared ds
  have hbound : ∀ s ∈ p.segments, ∀ id, s.feature? = some id → ∃ f, ts.feature? id = some f :=
    fun s hs id hid => FeaturePath.exists_feature hconsistent hp hs hid
  rw [collect_eq]
  cases hholders : holders ((roots.filterMap doc.find?).flatMap
    (encounters ts doc .collecting p.segments)) with
  | error e =>
      have he := (failed_mem_flatMap_iff htypes).mp (failed_mem_of_holders hholders)
      refine ⟨hbound, fun e' h => ?_, iff_of_true ⟨e, rfl⟩ ⟨e, he⟩, nofun⟩
      obtain rfl : e = e' := Except.error.inj h
      exact he
  | ok as =>
      obtain ⟨hfaults, hmem⟩ := holders_eq_ok hholders
      have hends (b : Annotation) :
          b ∈ as ↔ ∃ rest, BranchFrom ts doc roots p.segments rest b ∧ EndsAt ts b rest :=
        (hmem b).trans exists_observed_mem_flatMap_iff
      have has : ∀ a ∈ as, a ∈ doc.annotations := by
        intro a ha
        obtain ⟨rest, hbranch, -⟩ := (hends a).mp ha
        exact hbranch.mem
      refine ⟨hbound, nofun, iff_of_false nofun ?_, fun found h => ?_⟩
      · rintro ⟨e, hfails⟩
        exact hfaults e ((failed_mem_flatMap_iff htypes).mpr hfails)
      · obtain rfl : inOrder as = found := Except.ok.inj h
        refine ⟨pairwise_inOrder as, fun b => ?_⟩
        rw [hwf.mem_inOrder_iff has, hends]

/-! ### A document -/

namespace Sample

/-- Two mentions, each the next one of the other; the later one has both among its others, with a
scalar between them. A value that refers to a third one is refused. -/
def meeting : Document :=
  .changed "Ann met her" [.annotate ⟨2⟩ 0 3, .annotate ⟨1⟩ 8 11,
    .setValue ⟨0⟩ ⟨0⟩ (.reference ⟨1⟩), .setValue ⟨1⟩ ⟨0⟩ (.reference ⟨0⟩),
    .setValue ⟨1⟩ ⟨1⟩ (.reference ⟨2⟩),
    .setValue ⟨1⟩ ⟨1⟩ (.array [.reference ⟨1⟩, .scalar (.boolean true), .reference ⟨0⟩])]

/-- A path to the others of the next mention. -/
def toOthers : List Segment := [.named "next" ⟨0⟩, .named "others" ⟨1⟩, .unbound "ct" none]

end Sample

/-- The others of the next mention are both mentions, though the walk meets the later one first. -/
theorem collect_meeting :
    ∃ found,
      collect (.declared Sample.mentions) Sample.meeting [⟨0⟩, ⟨0⟩, ⟨7⟩] Sample.toOthers =
        .ok found ∧
      found.map Annotation.id = [⟨0⟩, ⟨1⟩] ∧
      ∀ b, b ∈ found ↔ ∃ rest,
        BranchFrom (.declared Sample.mentions) Sample.meeting [⟨0⟩, ⟨0⟩, ⟨7⟩] Sample.toOthers
          rest b ∧
        EndsAt (.declared Sample.mentions) b rest := by
  have htypes : ∀ a ∈ Sample.meeting.annotations,
      (TypeSystem.declared Sample.mentions).hasType a.type = true := by
    decide +kernel
  have hpath : FeaturePath.resolve (.declared Sample.mentions) (some ⟨1⟩)
      ["next", "others", "ct"] = .ok ⟨some ⟨1⟩, Sample.toOthers⟩ := by
    decide +kernel
  have hids : (collect (.declared Sample.mentions) Sample.meeting [⟨0⟩, ⟨0⟩, ⟨7⟩]
      Sample.toOthers).map (·.map Annotation.id) = .ok [⟨0⟩, ⟨1⟩] := by
    decide +kernel
  have hdoc : Document.changed _ _ = Sample.meeting := rfl
  obtain ⟨-, -, -, hfound⟩ := collect_branches Sample.mentions rfl _ _ hdoc htypes hpath
    [⟨0⟩, ⟨0⟩, ⟨7⟩]
  cases hcollect : collect (.declared Sample.mentions) Sample.meeting [⟨0⟩, ⟨0⟩, ⟨7⟩]
      Sample.toOthers with
  | error e => simp [hcollect, Except.map] at hids
  | ok found =>
      have hmap : found.map Annotation.id = [⟨0⟩, ⟨1⟩] := by
        simpa [hcollect, Except.map] using hids
      exact ⟨found, rfl, hmap, (hfound found hcollect).2⟩

end AnnotatedText
