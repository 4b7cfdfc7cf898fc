import AnnotatedText.Proofs.Walk.Branches

/-!
# Walks in two stages

A walk along a path can stop on its way and go on from what it has reached. In one go it follows each
branch to its end before it turns to the next, and comes to an annotation as often as there are
branches to it; in two stages all annotations on the way are reached first, and each is gone on from
once. What is collected is the same nevertheless, since an encounter behind the stop depends only on
the annotation that the walk goes on from, `mem_encounters_append_iff`.

The first part of the path has to lead on at each of its segments: a feature of scalars would end a
branch before the stop, and so would the covered text.

## Main results

* `mem_encounters_append_iff`: what there is to meet along a path in two parts.
* `collect_append`: collecting in two stages.
-/

namespace AnnotatedText

/-- A segment **leads on** if it is bound to a feature whose range is not one of scalars. -/
def Segment.LeadsOn (ts : TypeSystem) (s : Segment) : Prop :=
  ∃ id f, s.feature? = some id ∧ ts.feature? id = some f ∧ f.range.isScalar = false

variable {ts : TypeSystem} {doc : Document} {s : Segment} {a : Annotation} {tail p q : List Segment}
  {e : Encounter}

namespace Segment.LeadsOn

variable {f : Feature} {index? : Option Nat}

/-- A segment that leads on goes through no feature with a scalar range. -/
theorem isScalar_eq_false (h : s.LeadsOn ts) (hthrough : s.Through ts a f index?) :
    f.range.isScalar = false := by
  obtain ⟨id, g, hid, hg, hrange⟩ := h
  cases hthrough with
  | named name hf =>
      obtain rfl := Option.some.inj hid
      exact Option.some.inj (hg.symm.trans hf) ▸ hrange
  | indexed name i hf =>
      obtain rfl := Option.some.inj hid
      exact Option.some.inj (hg.symm.trans hf) ▸ hrange
  | unbound index? hf => cases hid

/-- A segment that leads on accesses no text. -/
theorem access_ne_text (h : s.LeadsOn ts) (isLast : Bool) : s.access ts a isLast ≠ .text := by
  obtain ⟨id, f, hid, hf, -⟩ := h
  cases s with
  | named name id' =>
      obtain rfl := Option.some.inj hid
      simp [access, hf]
  | indexed name id' i =>
      obtain rfl := Option.some.inj hid
      simp [access, hf]
  | coveredText => cases hid
  | unbound name index? => cases hid

/-- **Where a segment leads on, only a fault is met before any step**, whatever segments follow. -/
theorem met (h : s.LeadsOn ts) (hmet : Met ts doc a (s :: tail) e) :
    ∃ fault, e = .failed fault ∧ ∀ more, Met ts doc a (s :: more) e := by
  cases hmet with
  | text htext => exact absurd htext (h.access_ne_text _)
  | scalar tail hthrough hrange =>
      exact absurd (hrange.symm.trans (h.isScalar_eq_false hthrough)) (by decide)
  | fault tail hthrough hrange hvalue => exact ⟨_, rfl, fun more => .fault more hthrough hrange hvalue⟩

end Segment.LeadsOn

/-- **What there is to meet along a path in two parts** are the faults in its first part, and what
there is to meet along the second one from the annotations that the first one leads to. -/
theorem mem_encounters_append_iff (hp : ∀ s ∈ p, s.LeadsOn ts) :
    e ∈ encounters ts doc .collecting (p ++ q) a ↔
      (∃ fault, e = .failed fault ∧ e ∈ encounters ts doc .collecting p a) ∨
        ∃ b, (∃ o, .observed b o ∈ encounters ts doc .collecting p a) ∧
          e ∈ encounters ts doc .collecting q b := by
  induction p generalizing a with
  | nil =>
      simp only [List.nil_append, encounters, List.mem_singleton]
      constructor
      · intro he
        exact Or.inr ⟨a, ⟨_, rfl⟩, he⟩
      · rintro (⟨fault, rfl, hfault⟩ | ⟨b, ⟨o, hb⟩, he⟩)
        · cases hfault
        · obtain ⟨rfl, -⟩ := Encounter.observed.inj hb
          exact he
  | cons s tail ih =>
      obtain ⟨hs, htail⟩ := List.forall_mem_cons.mp hp
      rw [List.cons_append, mem_encounters_cons_iff]
      simp only [ih htail]
      constructor
      · rintro (hmet | ⟨c, hstep, ⟨fault, rfl, hc⟩ | ⟨b, ⟨o, hb⟩, he⟩⟩)
        · obtain ⟨fault, rfl, hmet⟩ := hs.met hmet
          exact Or.inl ⟨fault, rfl, mem_encounters_cons_iff.mpr (Or.inl (hmet tail))⟩
        · exact Or.inl ⟨fault, rfl, mem_encounters_cons_iff.mpr (Or.inr ⟨c, hstep, hc⟩)⟩
        · exact Or.inr ⟨b, ⟨o, mem_encounters_cons_iff.mpr (Or.inr ⟨c, hstep, hb⟩)⟩, he⟩
      · rintro (⟨fault, rfl, hfault⟩ | ⟨b, ⟨o, hb⟩, he⟩)
        · rcases mem_encounters_cons_iff.mp hfault with hmet | ⟨c, hstep, hc⟩
          · obtain ⟨-, -, hmet⟩ := hs.met hmet
            exact Or.inl (hmet (tail ++ q))
          · exact Or.inr ⟨c, hstep, Or.inl ⟨fault, rfl, hc⟩⟩
        · rcases mem_encounters_cons_iff.mp hb with hmet | ⟨c, hstep, hc⟩
          · obtain ⟨fault, hfault, -⟩ := hs.met hmet
            cases hfault
          · exact Or.inr ⟨c, hstep, Or.inr ⟨b, ⟨o, hc⟩, he⟩⟩

/-- The same from all roots. -/
theorem mem_flatMap_encounters_append_iff (hp : ∀ s ∈ p, s.LeadsOn ts) {as : List Annotation} :
    e ∈ as.flatMap (encounters ts doc .collecting (p ++ q)) ↔
      (∃ fault, e = .failed fault ∧ e ∈ as.flatMap (encounters ts doc .collecting p)) ∨
        ∃ b, (∃ o, .observed b o ∈ as.flatMap (encounters ts doc .collecting p)) ∧
          e ∈ encounters ts doc .collecting q b := by
  simp only [List.mem_flatMap, mem_encounters_append_iff hp]
  constructor
  · rintro ⟨a, ha, ⟨fault, hfault, he⟩ | ⟨b, ⟨o, hb⟩, he⟩⟩
    · exact Or.inl ⟨fault, hfault, a, ha, he⟩
    · exact Or.inr ⟨b, ⟨o, a, ha, hb⟩, he⟩
  · rintro (⟨fault, hfault, a, ha, he⟩ | ⟨b, ⟨o, a, ha, hb⟩, he⟩)
    · exact ⟨a, ha, Or.inl ⟨fault, hfault, he⟩⟩
    · exact ⟨a, ha, Or.inr ⟨b, ⟨o, hb⟩, he⟩⟩

/-- Annotations that are collected are roots to go on from. -/
theorem filterMap_find?_of_collect (hwf : doc.WellFormed) {roots : List AnnotationId}
    {found : List Annotation} (h : collect ts doc roots p = .ok found) :
    (found.map Annotation.id).filterMap doc.find? = found := by
  obtain ⟨-, -, hfound⟩ := (collect_eq_ok_iff hwf).mp h
  have hfind : ∀ b ∈ found, doc.find? b.id = some b := by
    intro b hb
    obtain ⟨rest, hbranch, -⟩ := exists_observed_mem_flatMap_iff.mp ((hfound b).mp hb)
    exact hwf.find?_id hbranch.mem
  rw [List.filterMap_map]
  calc found.filterMap (doc.find? ∘ Annotation.id) = found.filterMap some :=
        List.filterMap_congr hfind
    _ = found := List.filterMap_some

/-- **Collecting in two stages.** Where every segment of the first part of a path leads on, collecting
along the path succeeds exactly if collecting along the first part does, and from what is found there
along the second part; and then what is found is the same. So it is for every document that changes
make, with circles of references and values that do not fit their features, for all roots and for any
second part. -/
theorem collect_append (text : String) (cs : List Document.Change) {doc : Document}
    (hdoc : .changed text cs = doc) (ts : TypeSystem) {p : List Segment}
    (hp : ∀ s ∈ p, s.LeadsOn ts) (q : List Segment) (roots : List AnnotationId)
    (found : List Annotation) :
    collect ts doc roots (p ++ q) = .ok found ↔
      ∃ middle, collect ts doc roots p = .ok middle ∧
        collect ts doc (middle.map Annotation.id) q = .ok found := by
  have hwf : doc.WellFormed := hdoc ▸ Document.wellFormed_changed text cs
  -- if there is no fault in the first part, both walks meet the same
  have hsame {middle : List Annotation} (hmiddle : collect ts doc roots p = .ok middle)
      (e : Encounter) :
      e ∈ (roots.filterMap doc.find?).flatMap (encounters ts doc .collecting (p ++ q)) ↔
        e ∈ ((middle.map Annotation.id).filterMap doc.find?).flatMap
          (encounters ts doc .collecting q) := by
    obtain ⟨hfaults, -, hmem⟩ := (collect_eq_ok_iff hwf).mp hmiddle
    rw [mem_flatMap_encounters_append_iff hp, filterMap_find?_of_collect hwf hmiddle]
    refine (or_iff_right ?_).trans ?_
    · rintro ⟨fault, rfl, hfault⟩
      exact hfaults fault hfault
    · rw [List.mem_flatMap]
      exact exists_congr fun b => and_congr_left fun _ => (hmem b).symm
  have hstages {middle : List Annotation} (hmiddle : collect ts doc roots p = .ok middle) :
      collect ts doc roots (p ++ q) = .ok found ↔
        collect ts doc (middle.map Annotation.id) q = .ok found := by
    rw [collect_eq_ok_iff hwf, collect_eq_ok_iff hwf]
    simp only [hsame hmiddle]
  constructor
  · intro h
    cases hmiddle : collect ts doc roots p with
    | ok middle => exact ⟨middle, rfl, (hstages hmiddle).mp h⟩
    | error fault =>
        -- a fault in the first part is met on the whole path too
        obtain ⟨hfaults, -⟩ := (collect_eq_ok_iff hwf).mp h
        have hfault := failed_mem_of_collect hmiddle
        exact absurd ((mem_flatMap_encounters_append_iff hp).mpr (Or.inl ⟨fault, rfl, hfault⟩))
          (hfaults fault)
  · rintro ⟨middle, hmiddle, h⟩
    exact (hstages hmiddle).mpr h

/-- Both mentions are among the others of the later one, which is met before the earlier. The next ones
of both are found from there as they are in one go. -/
theorem collect_append_meeting :
    (∀ s ∈ [Segment.named "others" ⟨1⟩], s.LeadsOn (.declared Sample.mentions)) ∧
      ∃ middle found,
        collect (.declared Sample.mentions) Sample.meeting [⟨1⟩, ⟨7⟩, ⟨1⟩]
          [.named "others" ⟨1⟩] = .ok middle ∧
        middle.map Annotation.id = [⟨0⟩, ⟨1⟩] ∧
        collect (.declared Sample.mentions) Sample.meeting (middle.map Annotation.id)
          [.unbound "next" none, .coveredText] = .ok found ∧
        found.map Annotation.id = [⟨0⟩, ⟨1⟩] := by
  have hleads : ∀ s ∈ [Segment.named "others" ⟨1⟩], s.LeadsOn (.declared Sample.mentions) := by
    intro s hs
    obtain rfl := List.mem_singleton.mp hs
    exact ⟨⟨1⟩, ⟨⟨1⟩, "others", ⟨1⟩, .array (.reference ⟨1⟩)⟩, rfl, by decide +kernel, rfl⟩
  have hwhole : (collect (.declared Sample.mentions) Sample.meeting [⟨1⟩, ⟨7⟩, ⟨1⟩]
      ([.named "others" ⟨1⟩] ++ [.unbound "next" none, .coveredText])).map
        (·.map Annotation.id) = .ok [⟨0⟩, ⟨1⟩] := by
    decide +kernel
  have hfirst : (collect (.declared Sample.mentions) Sample.meeting [⟨1⟩, ⟨7⟩, ⟨1⟩]
      [.named "others" ⟨1⟩]).map (·.map Annotation.id) = .ok [⟨0⟩, ⟨1⟩] := by
    decide +kernel
  have hdoc : Document.changed _ _ = Sample.meeting := rfl
  cases hfound : collect (.declared Sample.mentions) Sample.meeting [⟨1⟩, ⟨7⟩, ⟨1⟩]
      ([.named "others" ⟨1⟩] ++ [.unbound "next" none, .coveredText]) with
  | error e =>
      rw [hfound] at hwhole
      cases hwhole
  | ok found =>
      rw [hfound] at hwhole
      obtain ⟨middle, hmiddle, hsecond⟩ := (collect_append _ _ hdoc (.declared Sample.mentions)
        hleads [.unbound "next" none, .coveredText] [⟨1⟩, ⟨7⟩, ⟨1⟩] found).mp hfound
      rw [hmiddle] at hfirst
      have hids : middle.map Annotation.id = [⟨0⟩, ⟨1⟩] := Except.ok.inj hfirst
      exact ⟨hleads, middle, found, hmiddle, hids, hsecond, Except.ok.inj hwhole⟩

end AnnotatedText
