import AnnotatedText.Proofs.Document.Changes
import AnnotatedText.Walk
import Mathlib.Data.List.Sort

/-!
# The order of annotations

Annotations are compared field by field, so their comparison is a linear preorder; and since the
last field is the place, two annotations of one document that are alike in it are the same one. So
putting annotations of a document in order one by one, each unless one like it is there, gives the
list that has them all, strictly ascending.

## Main results

* `Document.WellFormed.eq_of_compare`: in one document only the same annotation is alike.
* `pairwise_inOrder`: annotations in order are strictly ascending.
* `eq_of_ascending`: there is one way for them to be so.
* `inOrder_eq_self`: strictly ascending annotations are in order.
* `Document.WellFormed.mem_inOrder_iff`: none of them is lost.
-/

namespace AnnotatedText

namespace Annotation

variable {a b c : Annotation}

instance : Std.TransCmp Annotation.compare :=
  inferInstanceAs <| Std.TransCmp <|
    compareLex (compareOn fun a : Annotation => a.span.start) <|
      compareLex (compareOn fun a : Annotation => a.span.stop) <|
        compareLex (compareOn fun a : Annotation => a.type.index)
          (compareOn fun a : Annotation => a.id.index)

/-- Annotations that are alike have one place. -/
theorem id_eq_of_compare (h : a.compare b = .eq) : a.id = b.id := by
  rw [compare, Ordering.then_eq_eq, Ordering.then_eq_eq, Ordering.then_eq_eq] at h
  obtain ⟨-, -, -, hid⟩ := h
  exact congrArg AnnotationId.mk (Nat.compare_eq_eq.mp hid)

/-- The beginnings are compared first. -/
theorem compare_of_start_lt (h : a.span.start < b.span.start) : a.compare b = .lt := by
  rw [compare, Nat.compare_eq_lt.mpr h]
  rfl

end Annotation

/-- In one document only the same annotation is alike. -/
theorem Document.WellFormed.eq_of_compare {doc : Document} (h : doc.WellFormed) {a b : Annotation}
    (ha : a ∈ doc.annotations) (hb : b ∈ doc.annotations) (hab : a.compare b = .eq) : a = b := by
  obtain ⟨i, hi⟩ := List.mem_iff_getElem?.mp ha
  obtain ⟨j, hj⟩ := List.mem_iff_getElem?.mp hb
  have hplace : (⟨i⟩ : AnnotationId) = ⟨j⟩ := by
    rw [← h.id_eq i a hi, ← h.id_eq j b hj]
    exact Annotation.id_eq_of_compare hab
  obtain rfl : i = j := congrArg AnnotationId.index hplace
  exact Option.some.inj (hi.symm.trans hj)

variable {a b : Annotation} {found as : List Annotation}

/-- An insertion in order adds nothing but what is inserted. -/
theorem mem_of_mem_insertOrdered (h : b ∈ insertOrdered a found) : b = a ∨ b ∈ found := by
  fun_induction insertOrdered a found with
  | case1 => exact Or.inl (List.mem_singleton.mp h)
  | case2 c rest hlt => exact List.mem_cons.mp h
  | case3 c rest heq => exact Or.inr h
  | case4 c rest hgt ih =>
      rcases List.mem_cons.mp h with rfl | h
      · exact Or.inr List.mem_cons_self
      · exact (ih h).imp_right (List.mem_cons_of_mem c)

/-- Putting one more annotation at its place keeps the others strictly ascending. -/
theorem pairwise_insertOrdered (h : found.Pairwise fun a b => a.compare b = .lt) :
    (insertOrdered a found).Pairwise fun a b => a.compare b = .lt := by
  fun_induction insertOrdered a found with
  | case1 => exact List.pairwise_singleton _ a
  | case2 c rest hlt =>
      refine List.pairwise_cons.mpr ⟨fun b hb => ?_, h⟩
      rcases List.mem_cons.mp hb with rfl | hb
      · exact hlt
      · exact Std.TransCmp.lt_trans hlt ((List.pairwise_cons.mp h).1 b hb)
  | case3 c rest heq => exact h
  | case4 c rest hgt ih =>
      obtain ⟨hfirst, hrest⟩ := List.pairwise_cons.mp h
      refine List.pairwise_cons.mpr ⟨fun b hb => ?_, ih hrest⟩
      rcases mem_of_mem_insertOrdered hb with rfl | hb
      · exact Std.OrientedCmp.lt_of_gt hgt
      · exact hfirst b hb

/-- **Annotations in order are strictly ascending.** -/
theorem pairwise_inOrder (as : List Annotation) :
    (inOrder as).Pairwise fun a b => a.compare b = .lt := by
  suffices h : ∀ found : List Annotation, found.Pairwise (fun a b => a.compare b = .lt) →
      (as.foldl (fun found a => insertOrdered a found) found).Pairwise
        fun a b => a.compare b = .lt from h [] List.Pairwise.nil
  induction as with
  | nil => exact fun found hfound => hfound
  | cons a rest ih => exact fun found hfound => ih _ (pairwise_insertOrdered hfound)

/-- Annotations that are strictly ascending are determined by which they are. -/
theorem eq_of_ascending (has : as.Pairwise fun a b => a.compare b = .lt)
    (hfound : found.Pairwise fun a b => a.compare b = .lt) (h : ∀ a, a ∈ as ↔ a ∈ found) :
    as = found := by
  have hasymm {a b : Annotation} (hab : a.compare b = .lt) (hba : b.compare a = .lt) : False :=
    absurd (hba.symm.trans (Std.OrientedCmp.gt_of_lt hab)) (by decide)
  have hantisymm : Std.Antisymm fun a b : Annotation => a.compare b = .lt :=
    ⟨fun a b hab hba => (hasymm hab hba).elim⟩
  have hirrefl : Std.Irrefl fun a b : Annotation => a.compare b = .lt :=
    ⟨fun a haa => hasymm haa haa⟩
  exact has.eq_of_mem_iff hfound h

/-- An annotation that comes behind all others is put behind them. -/
theorem insertOrdered_of_forall_lt (h : ∀ b ∈ found, b.compare a = .lt) :
    insertOrdered a found = found ++ [a] := by
  induction found with
  | nil => rfl
  | cons b rest ih =>
      obtain ⟨hb, hrest⟩ := List.forall_mem_cons.mp h
      rw [insertOrdered, Std.OrientedCmp.gt_of_lt hb, List.cons_append]
      exact congrArg (b :: ·) (ih hrest)

/-- **Annotations that are strictly ascending are in order already.** -/
theorem inOrder_eq_self (h : as.Pairwise fun a b => a.compare b = .lt) : inOrder as = as := by
  suffices hfold : ∀ found : List Annotation,
      (found ++ as).Pairwise (fun a b => a.compare b = .lt) →
        as.foldl (fun found a => insertOrdered a found) found = found ++ as from hfold [] h
  clear h
  induction as with
  | nil =>
      intro found _
      exact (List.append_nil found).symm
  | cons a rest ih =>
      intro found hfound
      have hbefore : ∀ b ∈ found, b.compare a = .lt := fun b hb =>
        (List.pairwise_append.mp hfound).2.2 b hb a List.mem_cons_self
      rw [List.append_cons] at hfound
      rw [List.foldl_cons, insertOrdered_of_forall_lt hbefore, ih _ hfound, ← List.append_cons]

namespace Document.WellFormed

variable {doc : Document}

/-- An annotation of a document is among others once it is put at its place. -/
theorem mem_insertOrdered_iff (h : doc.WellFormed) (ha : a ∈ doc.annotations)
    (hfound : ∀ b ∈ found, b ∈ doc.annotations) :
    b ∈ insertOrdered a found ↔ b = a ∨ b ∈ found := by
  refine ⟨mem_of_mem_insertOrdered, ?_⟩
  fun_induction insertOrdered a found with
  | case1 => simp
  | case2 c rest hlt => exact List.mem_cons.mpr
  | case3 c rest heq =>
      obtain rfl := h.eq_of_compare ha (hfound c List.mem_cons_self) heq
      rintro (rfl | hb)
      · exact List.mem_cons_self
      · exact hb
  | case4 c rest hgt ih =>
      have hrest := ih fun b hb => hfound b (List.mem_cons_of_mem c hb)
      rintro (rfl | hb)
      · exact List.mem_cons_of_mem c (hrest (Or.inl rfl))
      · rcases List.mem_cons.mp hb with rfl | hb
        · exact List.mem_cons_self
        · exact List.mem_cons_of_mem c (hrest (Or.inr hb))

/-- **None of the annotations of a document is lost** when they are put in order. -/
theorem mem_inOrder_iff (h : doc.WellFormed) (has : ∀ a ∈ as, a ∈ doc.annotations) :
    b ∈ inOrder as ↔ b ∈ as := by
  suffices hfold : ∀ found : List Annotation, (∀ a ∈ found, a ∈ doc.annotations) →
      (b ∈ as.foldl (fun found a => insertOrdered a found) found ↔ b ∈ found ∨ b ∈ as) by
    rw [inOrder, hfold [] nofun]
    simp
  induction as with
  | nil => simp
  | cons a rest ih =>
      intro found hfound
      have ha : a ∈ doc.annotations := has a List.mem_cons_self
      have hmore : ∀ c ∈ insertOrdered a found, c ∈ doc.annotations := by
        intro c hc
        rcases mem_of_mem_insertOrdered hc with rfl | hc
        · exact ha
        · exact hfound c hc
      rw [List.foldl_cons, ih (fun c hc => has c (List.mem_cons_of_mem a hc)) _ hmore,
        h.mem_insertOrdered_iff ha hfound, List.mem_cons]
      exact or_assoc.trans or_left_comm

end Document.WellFormed

end AnnotatedText
