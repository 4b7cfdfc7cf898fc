import AnnotatedText.Proofs.Document.Changes

/-!
# Sound documents

Whatever is asked of a document, it stays sound: annotations are at their places, their spans lie in
the text at character boundaries, and whatever a value mentions, however deep inside arrays, is there.
`Value.Mentions` says by itself what a value mentions; that the check of a value asks just this is
`Value.refersBelow_iff`.

Values may be replaced, and with them circles of references closed and opened again, but an
annotation keeps its span and its type for good, `Document.IsKeptBy`. A change is accepted exactly if
what it names is there, and a further annotation also needs a place; an accepted one touches one
annotation: one that is added, or one value of one that is there.

## Main results

* `Value.refersBelow_iff`: what the check of a value asks.
* `Document.isKeptBy_changeAll`: what no history of changes touches.
* `Annotation.value?_withValue`: what a new value of a feature touches.
* `Document.sound_after_any_changes`: soundness after every history, and what one more change does.
-/

namespace AnnotatedText

/-! ### What a value mentions -/

/-- The annotations that a value **mentions**, itself or at any depth in its elements. -/
inductive Value.Mentions : Value → AnnotationId → Prop
  | reference (id : AnnotationId) : Mentions (.reference id) id
  | item {items : List Value} {v : Value} {id : AnnotationId} (hv : v ∈ items)
      (hid : Mentions v id) : Mentions (.array items) id

mutual

/-- **What the check of a value asks**: that all that it mentions is among the first. -/
theorem Value.refersBelow_iff {n : Nat} :
    ∀ {v : Value}, v.refersBelow n = true ↔ ∀ id, v.Mentions id → id.index < n
  | .scalar s => by
      rw [refersBelow]
      refine ⟨fun _ id hid => ?_, fun _ => rfl⟩
      cases hid
  | .reference target => by
      rw [refersBelow, decide_eq_true_iff]
      refine ⟨fun hlt id hid => ?_, fun h => h target (.reference target)⟩
      cases hid
      exact hlt
  | .array items => by
      rw [refersBelow, allReferBelow_iff]
      refine ⟨fun h id hid => ?_, fun h v hv id hid => h id (.item hv hid)⟩
      cases hid with
      | item hv hid => exact h _ hv id hid

/-- The check of a list looks at all that its items mention. -/
theorem Value.allReferBelow_iff {n : Nat} :
    ∀ {items : List Value}, allReferBelow n items = true ↔
      ∀ v ∈ items, ∀ id, v.Mentions id → id.index < n
  | [] => by
      rw [allReferBelow]
      exact ⟨fun _ v hv => absurd hv List.not_mem_nil, fun _ => rfl⟩
  | v :: rest => by
      rw [allReferBelow, Bool.and_eq_true, refersBelow_iff, allReferBelow_iff,
        List.forall_mem_cons]

end

/-! ### Values of an annotation -/

namespace Annotation

/-- A value that is set is found for its feature, and nothing else changes. -/
theorem find?_insertValue (f g : FeatureId) (v : Value) (values : List (FeatureId × Value)) :
    (insertValue f v values).find? (·.1 == g) =
      if f = g then some (f, v) else values.find? (·.1 == g) := by
  fun_induction insertValue f v values with
  | case1 => by_cases hg : f = g <;> simp [hg]
  | case2 w rest => by_cases hg : f = g <;> simp [hg]
  | case3 h w rest hne hlt => by_cases hg : f = g <;> simp [hg]
  | case4 h w rest hne hlt ih =>
      rw [List.find?_cons, List.find?_cons, ih]
      by_cases hg : f = g
      · subst hg
        simp [beq_eq_false_iff_ne.mpr (Ne.symm hne)]
      · simp [hg]

/-- **A new value of a feature** touches no other one. -/
theorem value?_withValue (a : Annotation) (f g : FeatureId) (v : Value) :
    (a.withValue f v).value? g = if f = g then some v else a.value? g := by
  rw [value?, withValue, find?_insertValue, value?]
  split <;> rfl

end Annotation

namespace Document

variable {doc more : Document}

/-! ### What stays -/

/-- A later state of a document **keeps** its text, and its annotations with their spans and types. -/
structure IsKeptBy (doc more : Document) : Prop where
  text_eq : more.text = doc.text
  exists_find? : ∀ id a, doc.find? id = some a →
    ∃ b, more.find? id = some b ∧ b.id = a.id ∧ b.span = a.span ∧ b.type = a.type

/-- A document keeps its own annotations. -/
theorem IsKeptBy.refl (doc : Document) : doc.IsKeptBy doc :=
  ⟨rfl, fun _ a ha => ⟨a, ha, rfl, rfl, rfl⟩⟩

/-- One change keeps what is there. -/
theorem IsKeptBy.change {first : Document} (h : first.IsKeptBy doc) {c : Change}
    (hc : doc.change c = .ok more) : first.IsKeptBy more := by
  obtain ⟨type, start, stop, surface, -, -, rfl⟩ | ⟨place, f, v, old, -, -, hold, rfl⟩ :=
    change_cases hc
  · refine ⟨h.text_eq, fun id a ha => ?_⟩
    obtain ⟨b, hb, hkept⟩ := h.exists_find? id a ha
    refine ⟨b, ?_, hkept⟩
    rw [find?, List.getElem?_append_left (List.getElem?_eq_some_iff.mp hb).1]
    exact hb
  · refine ⟨h.text_eq, fun id a ha => ?_⟩
    obtain ⟨b, hb, hkept⟩ := h.exists_find? id a ha
    by_cases hid : place.index = id.index
    · obtain rfl : place = id := congrArg AnnotationId.mk hid
      obtain rfl : old = b := Option.some.inj (hold.symm.trans hb)
      refine ⟨old.withValue f v, ?_, hkept⟩
      rw [find?, List.getElem?_set_self (List.getElem?_eq_some_iff.mp hb).1]
    · refine ⟨b, ?_, hkept⟩
      rw [find?, List.getElem?_set_ne hid]
      exact hb

/-- **No history of changes** takes an annotation away, moves it or changes its type. -/
theorem isKeptBy_changeAll (doc : Document) (cs : List Change) : doc.IsKeptBy (doc.changeAll cs) :=
  changeAll_induction (IsKeptBy.refl doc) (fun _ _ _ h hc => h.change hc) cs

/-! ### What a change asks and does -/

/-- An annotation is found if and only if its id is below the number of annotations. -/
theorem exists_find?_iff {id : AnnotationId} :
    (∃ a, doc.find? id = some a) ↔ id.index < doc.size := by
  constructor
  · rintro ⟨a, ha⟩
    exact (List.getElem?_eq_some_iff.mp ha).1
  · intro hlt
    exact ⟨_, List.getElem?_eq_getElem hlt⟩

/-- **An annotation is added** exactly where the text can be cut, as long as there is a place for
it. -/
theorem exists_annotate_iff {type : TypeId} {start stop : Nat} :
    (∃ more id, doc.annotate type start stop = .ok (more, id)) ↔
      (start ≤ stop ∧ Text.IsBoundary doc.text.toList start ∧
        Text.IsBoundary doc.text.toList stop) ∧ doc.size < placeLimit := by
  rw [← Text.exists_slice?_iff]
  constructor
  · rintro ⟨more, id, h⟩
    obtain ⟨hslice, hroom, -⟩ := annotate_eq_ok_iff.mp h
    exact ⟨hslice, hroom⟩
  · rintro ⟨hslice, hroom⟩
    exact ⟨_, _, annotate_eq_ok_iff.mpr ⟨hslice, hroom, rfl, rfl⟩⟩

/-- **An annotation that is added** comes behind the others and touches none of them. -/
theorem find?_annotate {type : TypeId} {start stop : Nat} {id : AnnotationId}
    (h : doc.annotate type start stop = .ok (more, id)) :
    id = ⟨doc.size⟩ ∧ more.size = doc.size + 1 ∧
      more.find? id = some ⟨id, ⟨start, stop⟩, type, []⟩ ∧
      ∀ other, other ≠ id → more.find? other = doc.find? other := by
  obtain ⟨-, -, rfl, rfl⟩ := annotate_eq_ok_iff.mp h
  refine ⟨rfl, ?_, ?_, fun other hother => ?_⟩
  · rw [size, List.length_append]
    rfl
  · rw [find?]
    exact List.getElem?_concat_length
  · have hne : other.index ≠ doc.annotations.length := fun heq => hother (congrArg AnnotationId.mk heq)
    rw [find?, find?]
    rcases Nat.lt_or_gt_of_ne hne with hlt | hgt
    · exact List.getElem?_append_left hlt
    · rw [List.getElem?_eq_none (Nat.le_of_lt hgt), List.getElem?_eq_none]
      rw [List.length_append, List.length_singleton]
      exact hgt

/-- **A value is set** exactly if the annotation is there and all that the value mentions. -/
theorem exists_setValue_iff {id : AnnotationId} {f : FeatureId} {v : Value} :
    (∃ more, doc.setValue id f v = .ok more) ↔
      (∃ a, doc.find? id = some a) ∧ ∀ other, v.Mentions other → ∃ b, doc.find? other = some b := by
  constructor
  · rintro ⟨more, h⟩
    obtain ⟨hv, a, ha, -⟩ := setValue_eq_ok_iff.mp h
    exact ⟨⟨a, ha⟩, fun other hother => exists_find?_iff.mpr (Value.refersBelow_iff.mp hv _ hother)⟩
  · rintro ⟨⟨a, ha⟩, hall⟩
    have hv : v.refersBelow doc.size = true :=
      Value.refersBelow_iff.mpr fun other hother => exists_find?_iff.mp (hall other hother)
    exact ⟨_, setValue_eq_ok_iff.mpr ⟨hv, a, ha, rfl⟩⟩

/-- **A value that is set** touches no other annotation, and of its own no other value. -/
theorem find?_setValue {id : AnnotationId} {f : FeatureId} {v : Value}
    (h : doc.setValue id f v = .ok more) :
    more.text = doc.text ∧ more.size = doc.size ∧
      (∀ other, other ≠ id → more.find? other = doc.find? other) ∧
      ∃ a b, doc.find? id = some a ∧ more.find? id = some b ∧
        b.id = a.id ∧ b.span = a.span ∧ b.type = a.type ∧ b.value? f = some v ∧
        ∀ g, g ≠ f → b.value? g = a.value? g := by
  obtain ⟨-, a, ha, rfl⟩ := setValue_eq_ok_iff.mp h
  refine ⟨rfl, List.length_set, fun other hother => ?_, a, a.withValue f v, ha, ?_, rfl, rfl, rfl, ?_,
    fun g hg => ?_⟩
  · rw [find?, find?]
    exact List.getElem?_set_ne fun heq => hother (congrArg AnnotationId.mk heq.symm)
  · rw [find?]
    exact List.getElem?_set_self (List.getElem?_eq_some_iff.mp ha).1
  · rw [ Annotation.value?_withValue, if_pos rfl]
  · rw [ Annotation.value?_withValue, if_neg (Ne.symm hg)]

/-! ### Soundness -/

/-- A document is **sound** if each annotation is at its place, its span lies in the text in order and
at character boundaries, so that it covers a part of the text, and whatever its values mention is
there. -/
structure IsSound (doc : Document) : Prop where
  id_eq : ∀ i (a : Annotation), doc.annotations[i]? = some a → a.id = ⟨i⟩
  start_le_stop : ∀ a ∈ doc.annotations, a.span.start ≤ a.span.stop
  stop_le : ∀ a ∈ doc.annotations, a.span.stop ≤ Text.byteLength doc.text.toList
  at_boundaries : ∀ a ∈ doc.annotations, Text.IsBoundary doc.text.toList a.span.start ∧
    Text.IsBoundary doc.text.toList a.span.stop
  covers : ∀ a ∈ doc.annotations,
    Text.slice? doc.text a.span.start a.span.stop = some (doc.coveredText a)
  mentioned_found : ∀ a ∈ doc.annotations, ∀ f v, a.value? f = some v → ∀ id, v.Mentions id →
    ∃ b, doc.find? id = some b

/-- A well-formed document is sound. -/
theorem WellFormed.isSound (h : doc.WellFormed) : doc.IsSound := by
  have hspan (a : Annotation) (ha : a ∈ doc.annotations) :=
    Text.exists_slice?_iff.mp (h.exists_slice? a ha)
  refine ⟨h.id_eq, fun a ha => (hspan a ha).1, fun a ha => (hspan a ha).2.2.le_byteLength,
    fun a ha => (hspan a ha).2, fun a ha => ?_, fun a ha f v hv id hid => ?_⟩
  · obtain ⟨surface, hsurface⟩ := h.exists_slice? a ha
    rw [coveredText, hsurface, Option.getD_some]
  · obtain ⟨p, hp, rfl⟩ := Option.map_eq_some_iff.mp hv
    have hbelow := h.refersBelow a ha p (List.mem_of_find?_eq_some hp)
    exact exists_find?_iff.mpr (Value.refersBelow_iff.mp hbelow id hid)

/-- **After every history of changes** a document is sound, and what is there stays with its span and
its type whatever comes after. One more change that is refused changes nothing; an annotation is added
exactly where the text can be cut, as long as there is a place for it, and touches no other; a value is
set exactly where the annotation is there and all that the value mentions, and touches no other
value. -/
theorem sound_after_any_changes (text : String) (cs : List Change) :
    (changed text cs).text = text ∧ (changed text cs).IsSound ∧
    (∀ later, (changed text cs).IsKeptBy (changed text (cs ++ later))) ∧
    (∀ c e, (changed text cs).change c = .error e → changed text (cs ++ [c]) = changed text cs) ∧
    (∀ type start stop,
      ((∃ more id, (changed text cs).annotate type start stop = .ok (more, id)) ↔
        (start ≤ stop ∧ Text.IsBoundary text.toList start ∧ Text.IsBoundary text.toList stop) ∧
          (changed text cs).size < placeLimit) ∧
      ∀ more id, (changed text cs).annotate type start stop = .ok (more, id) →
        id = ⟨(changed text cs).size⟩ ∧ more.size = (changed text cs).size + 1 ∧
        more.find? id = some ⟨id, ⟨start, stop⟩, type, []⟩ ∧
        ∀ other, other ≠ id → more.find? other = (changed text cs).find? other) ∧
    ∀ id f v,
      ((∃ more, (changed text cs).setValue id f v = .ok more) ↔
        (∃ a, (changed text cs).find? id = some a) ∧
          ∀ other, v.Mentions other → ∃ b, (changed text cs).find? other = some b) ∧
      ∀ more, (changed text cs).setValue id f v = .ok more →
        more.text = text ∧ more.size = (changed text cs).size ∧
        (∀ other, other ≠ id → more.find? other = (changed text cs).find? other) ∧
        ∃ a b, (changed text cs).find? id = some a ∧ more.find? id = some b ∧
          b.id = a.id ∧ b.span = a.span ∧ b.type = a.type ∧ b.value? f = some v ∧
          ∀ g, g ≠ f → b.value? g = a.value? g := by
  have htext : (changed text cs).text = text := (isKeptBy_changeAll (ofText text) cs).text_eq
  have happend (later : List Change) :
      changed text (cs ++ later) = (changed text cs).changeAll later :=
    changeAll_append (ofText text) cs later
  refine ⟨htext, (wellFormed_changed text cs).isSound, fun later => ?_, fun c e hc => ?_,
    fun type start stop => ⟨?_, fun more id => find?_annotate⟩,
    fun id f v => ⟨exists_setValue_iff, fun more hmore => ?_⟩⟩
  · exact happend later ▸ isKeptBy_changeAll (changed text cs) later
  · rw [happend, changeAll, hc]
    rfl
  · have hiff := @exists_annotate_iff (changed text cs) type start stop
    rwa [htext] at hiff
  · have hset := find?_setValue hmore
    rwa [htext] at hset

end Document

end AnnotatedText
