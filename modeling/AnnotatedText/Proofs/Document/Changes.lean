import AnnotatedText.Document
import AnnotatedText.Proofs.Text.Slices

/-!
# Changes of a document

A document comes about from its text by changes, of which any may be refused; one that is refused
leaves the document as it is. `change_cases` says all that a change does: it adds an annotation
behind the others, or it puts one value into one of them. A value is only taken in if all that it
refers to is there, and annotations stay, so what a value refers to is there for good.

## Main results

* `Document.change_cases`: what a change does.
* `Document.wellFormed_changed`: what holds of a document after every history of changes.
* `Annotation.perm_insertValue`: a value of a feature that has none joins the values.
-/

namespace AnnotatedText

/-! ### Values -/

mutual

/-- What refers to some of the first annotations refers to some of more of them. -/
theorem Value.refersBelow_mono {m n : Nat} (h : m ≤ n) :
    ∀ {v : Value}, v.refersBelow m = true → v.refersBelow n = true
  | .scalar _, _ => by rw [refersBelow]
  | .reference id, hv => by
      rw [refersBelow] at hv ⊢
      exact decide_eq_true (Nat.lt_of_lt_of_le (of_decide_eq_true hv) h)
  | .array _, hv => by
      rw [refersBelow] at hv ⊢
      exact allReferBelow_mono h hv

/-- What refers below a place refers below each later one, in every item. -/
theorem Value.allReferBelow_mono {m n : Nat} (h : m ≤ n) :
    ∀ {items : List Value}, allReferBelow m items = true → allReferBelow n items = true
  | [], _ => by rw [allReferBelow]
  | _ :: _, hv => by
      rw [allReferBelow, Bool.and_eq_true] at hv ⊢
      exact ⟨refersBelow_mono h hv.1, allReferBelow_mono h hv.2⟩

end

namespace Annotation

variable {f g : FeatureId} {v : Value} {values : List (FeatureId × Value)}

/-- After a value is set, a feature has this value or one from before. -/
theorem mem_of_mem_insertValue {p : FeatureId × Value} (h : p ∈ insertValue f v values) :
    p = (f, v) ∨ p ∈ values := by
  fun_induction insertValue f v values with
  | case1 => exact Or.inl (List.mem_singleton.mp h)
  | case2 w rest => exact (List.mem_cons.mp h).imp_right (List.mem_cons_of_mem _)
  | case3 g w rest hne hlt => exact List.mem_cons.mp h
  | case4 g w rest hne hlt ih =>
      rcases List.mem_cons.mp h with rfl | h
      · exact Or.inr List.mem_cons_self
      · exact (ih h).imp_right (List.mem_cons_of_mem _)

/-- **A value of a feature that has none joins the values.** -/
theorem perm_insertValue (h : ∀ p ∈ values, p.1 ≠ f) :
    (insertValue f v values).Perm ((f, v) :: values) := by
  fun_induction insertValue f v values with
  | case1 => exact List.Perm.refl _
  | case2 w rest => exact absurd rfl (h _ List.mem_cons_self)
  | case3 g w rest hne hlt => exact List.Perm.refl _
  | case4 g w rest hne hlt ih =>
      have hrest := ih fun p hp => h p (List.mem_cons_of_mem _ hp)
      exact (hrest.cons (g, w)).trans (List.Perm.swap ..)

end Annotation

/-! ### Changes -/

namespace Document

/-- A change of a document. -/
inductive Change where
  | annotate (type : TypeId) (start stop : Nat)
  | setValue (id : AnnotationId) (f : FeatureId) (v : Value)

/-- The document with one more change. -/
def change (doc : Document) : Change → Except AnnotationError Document
  | .annotate type start stop => (doc.annotate type start stop).map Prod.fst
  | .setValue id f v => doc.setValue id f v

/-- The document after a history of changes. -/
def changeAll (doc : Document) : List Change → Document
  | [] => doc
  | c :: rest =>
    match doc.change c with
    | .ok more => more.changeAll rest
    | .error _ => doc.changeAll rest

/-- The document that a history of changes makes of a text. -/
def changed (text : String) (cs : List Change) : Document := (ofText text).changeAll cs

variable {doc more : Document}

/-- A document is annotated if the text has a slice at the span and there is a place for one more
annotation. -/
theorem annotate_eq_ok_iff {type : TypeId} {start stop : Nat} {id : AnnotationId} :
    doc.annotate type start stop = .ok (more, id) ↔
      (∃ surface, Text.slice? doc.text start stop = some surface) ∧ doc.size < placeLimit ∧
        id = ⟨doc.size⟩ ∧
        more = ⟨doc.text, doc.annotations ++ [⟨⟨doc.size⟩, ⟨start, stop⟩, type, []⟩]⟩ := by
  rw [annotate]
  cases hslice : Text.slice? doc.text start stop with
  | none => simp
  | some surface =>
      by_cases hroom : doc.size < placeLimit
      · simp only [hroom, if_true, Except.ok.injEq, Prod.mk.injEq, Option.some.injEq, exists_eq',
          true_and]
        constructor
        · rintro ⟨rfl, rfl⟩
          exact ⟨rfl, rfl⟩
        · rintro ⟨rfl, rfl⟩
          exact ⟨rfl, rfl⟩
      · simp [hroom]

/-- A value is set if the annotation is there and all that the value refers to. -/
theorem setValue_eq_ok_iff {id : AnnotationId} {f : FeatureId} {v : Value} :
    doc.setValue id f v = .ok more ↔
      v.refersBelow doc.size = true ∧ ∃ a, doc.find? id = some a ∧
        more = ⟨doc.text, doc.annotations.set id.index (a.withValue f v)⟩ := by
  rw [setValue]
  cases hv : v.refersBelow doc.size with
  | false => simp
  | true =>
      cases ha : doc.find? id with
      | none => simp
      | some a =>
          simp only [Bool.not_true, Bool.false_eq_true, if_false, Except.ok.injEq, true_and,
            Option.some.injEq, exists_eq_left']
          exact eq_comm

/-- **What a change does**: it adds an annotation without values behind the others, where the text
has a slice, or it puts a value whose references are there into an annotation. -/
theorem change_cases {c : Change} (h : doc.change c = .ok more) :
    (∃ type start stop surface, c = .annotate type start stop ∧
      Text.slice? doc.text start stop = some surface ∧
      more = ⟨doc.text, doc.annotations ++ [⟨⟨doc.size⟩, ⟨start, stop⟩, type, []⟩]⟩) ∨
    ∃ id f v a, c = .setValue id f v ∧ v.refersBelow doc.size = true ∧ doc.find? id = some a ∧
      more = ⟨doc.text, doc.annotations.set id.index (a.withValue f v)⟩ := by
  cases c with
  | annotate type start stop =>
      left
      rw [change] at h
      cases hadded : doc.annotate type start stop with
      | error e =>
          rw [hadded] at h
          cases h
      | ok added =>
          rw [hadded] at h
          obtain rfl : added.1 = more := Except.ok.inj h
          obtain ⟨⟨surface, hsurface⟩, -, -, hmore⟩ := annotate_eq_ok_iff.mp hadded
          exact ⟨type, start, stop, surface, rfl, hsurface, hmore⟩
  | setValue id f v =>
      right
      obtain ⟨hv, a, ha, hmore⟩ := setValue_eq_ok_iff.mp h
      exact ⟨id, f, v, a, rfl, hv, ha, hmore⟩

/-! ### Histories -/

/-- What holds of every document that comes about by changes: each annotation is at its place, the
text has a slice at its span, and what its values refer to is there. -/
structure WellFormed (doc : Document) : Prop where
  id_eq : ∀ i (a : Annotation), doc.annotations[i]? = some a → a.id = ⟨i⟩
  exists_slice? : ∀ a ∈ doc.annotations,
    ∃ surface, Text.slice? doc.text a.span.start a.span.stop = some surface
  refersBelow : ∀ a ∈ doc.annotations, ∀ p ∈ a.values, p.2.refersBelow doc.size = true

/-- Each annotation of a document is found by its place. -/
theorem WellFormed.find?_id (h : doc.WellFormed) {a : Annotation} (ha : a ∈ doc.annotations) :
    doc.find? a.id = some a := by
  obtain ⟨i, hi⟩ := List.mem_iff_getElem?.mp ha
  rw [find?, h.id_eq i a hi, hi]

/-- A document without annotations is well-formed. -/
theorem wellFormed_ofText (text : String) : (ofText text).WellFormed :=
  ⟨by simp [ofText], by simp [ofText], by simp [ofText]⟩

/-- A further annotation is at its place, and the references of the others stay good. -/
theorem WellFormed.add (h : doc.WellFormed) {type : TypeId} {start stop : Nat} {surface : String}
    (hsurface : Text.slice? doc.text start stop = some surface) :
    WellFormed ⟨doc.text, doc.annotations ++ [⟨⟨doc.size⟩, ⟨start, stop⟩, type, []⟩]⟩ := by
  refine ⟨fun i a ha => ?_, fun a ha => ?_, fun a ha p hp => ?_⟩
  · rcases Nat.lt_or_ge i doc.annotations.length with hi | hi
    · rw [List.getElem?_append_left hi] at ha
      exact h.id_eq i a ha
    · rw [List.getElem?_append_right hi] at ha
      obtain ⟨hlast, rfl⟩ := List.getElem?_eq_some_iff.mp ha
      rw [List.length_singleton] at hlast
      have hplace : i = doc.size := by
        rw [size]
        omega
      rw [List.getElem_singleton, hplace]
  · rcases List.mem_append.mp ha with ha | ha
    · exact h.exists_slice? a ha
    · obtain rfl := List.mem_singleton.mp ha
      exact ⟨surface, hsurface⟩
  · rcases List.mem_append.mp ha with ha | ha
    · refine Value.refersBelow_mono ?_ (h.refersBelow a ha p hp)
      rw [size, size, List.length_append]
      exact Nat.le_add_right _ _
    · obtain rfl := List.mem_singleton.mp ha
      exact absurd hp List.not_mem_nil

/-- A value in the stead of another one of the same annotation changes nothing else. -/
theorem WellFormed.setValue (h : doc.WellFormed) {id : AnnotationId} {a : Annotation}
    (ha : doc.find? id = some a) (f : FeatureId) {v : Value}
    (hv : v.refersBelow doc.size = true) :
    WellFormed ⟨doc.text, doc.annotations.set id.index (a.withValue f v)⟩ := by
  have hmem : a ∈ doc.annotations := List.mem_of_getElem? ha
  refine ⟨fun i b hb => ?_, fun b hb => ?_, fun b hb p hp => ?_⟩
  · rw [List.getElem?_set] at hb
    by_cases hi : id.index = i
    · rw [if_pos hi] at hb
      obtain ⟨-, rfl⟩ : id.index < doc.annotations.length ∧ a.withValue f v = b := by
        simpa using hb
      rw [← hi]
      exact h.id_eq _ a ha
    · rw [if_neg hi] at hb
      exact h.id_eq i b hb
  · rcases List.mem_or_eq_of_mem_set hb with hb | rfl
    · exact h.exists_slice? b hb
    · exact h.exists_slice? a hmem
  · show p.2.refersBelow (doc.annotations.set id.index (a.withValue f v)).length = true
    rw [List.length_set]
    rcases List.mem_or_eq_of_mem_set hb with hb | rfl
    · exact h.refersBelow b hb p hp
    · rcases Annotation.mem_of_mem_insertValue hp with rfl | hp
      · exact hv
      · exact h.refersBelow a hmem p hp

/-- **One change keeps a document well-formed.** -/
theorem WellFormed.change (h : doc.WellFormed) {c : Change} (hc : doc.change c = .ok more) :
    more.WellFormed := by
  obtain ⟨type, start, stop, surface, -, hsurface, rfl⟩ | ⟨id, f, v, a, -, hv, ha, rfl⟩ :=
    change_cases hc
  · exact h.add hsurface
  · exact h.setValue ha f hv

/-- A history goes on from the document that its first part leaves behind. -/
theorem changeAll_append (doc : Document) (cs more : List Change) :
    doc.changeAll (cs ++ more) = (doc.changeAll cs).changeAll more := by
  induction cs generalizing doc with
  | nil => rfl
  | cons c rest ih =>
      rw [List.cons_append, Document.changeAll, Document.changeAll]
      cases doc.change c with
      | error e => exact ih doc
      | ok next => exact ih next

/-- What every accepted change keeps is kept by a history. -/
theorem changeAll_induction {P : Document → Prop} (h : P doc)
    (hstep : ∀ doc c more, P doc → doc.change c = .ok more → P more) (cs : List Change) :
    P (doc.changeAll cs) := by
  induction cs generalizing doc with
  | nil => exact h
  | cons c rest ih =>
      rw [Document.changeAll]
      cases hc : doc.change c with
      | error e => exact ih h
      | ok more => exact ih (hstep doc c more h hc)

/-- **What holds of a document after every history of changes.** -/
theorem wellFormed_changed (text : String) (cs : List Change) : (changed text cs).WellFormed :=
  changeAll_induction (wellFormed_ofText text) (fun _ _ _ h hc => h.change hc) cs

end Document

end AnnotatedText
