import AnnotatedText.Proofs.TypeSystem.Hierarchy
import AnnotatedText.Proofs.Walk.Branches
import Mathlib.Data.Finset.Sort
import Mathlib.Data.Prod.Lex

/-!
# Annotations of a type

The annotations of a type are put in order twice over, in two ways. A document sorts those that it
selects by comparing them with each other; a walk keeps a set of what it has collected, in which an
annotation is its key: its beginning, its end, its type and its place. Both come to the same, since
the comparison is the lexicographic order of the keys and no two annotations of a document share
one.

So it does not matter in which order the annotations of a type are handed on as roots, nor how often
one is: the empty path, which leads from each root to itself, collects them as they were selected.

## Main results

* `Annotation.compare_eq_lt_iff`: the comparison is the order of the keys.
* `Document.WellFormed.map_key_inOrder`: annotations put in order one by one are a set of keys.
* `Document.select_canonical`: what is selected, in which order, and that a walk keeps to it.
-/

namespace AnnotatedText

namespace Annotation

/-- The **key** of an annotation: its beginning, its end, its type and its place, to be compared in
this order. -/
def key (a : Annotation) : Nat ×ₗ Nat ×ₗ Nat ×ₗ Nat :=
  toLex (a.span.start, toLex (a.span.stop, toLex (a.type.index, a.id.index)))

/-- **Annotations are compared by their keys.** -/
theorem compare_eq_lt_iff {a b : Annotation} : a.compare b = .lt ↔ a.key < b.key := by
  have hcompare : a.compare b = Ord.compare a.key b.key := rfl
  rw [hcompare, compare_lt_iff_lt]

end Annotation

variable {as : List Annotation}

/-- What is strictly ascending stays so when each annotation is its key. -/
theorem pairwise_map_key (h : as.Pairwise fun a b => a.compare b = .lt) :
    (as.map Annotation.key).Pairwise (· < ·) :=
  List.pairwise_map.mpr (h.imp Annotation.compare_eq_lt_iff.mp)

/-- Collecting along the empty path puts the roots in order. -/
theorem collect_nil (ts : TypeSystem) (doc : Document) (roots : List AnnotationId) :
    collect ts doc roots [] = .ok (inOrder (roots.filterMap doc.find?)) := by
  have hholders (as : List Annotation) :
      holders (as.flatMap (encounters ts doc .collecting [])) = .ok as := by
    induction as with
    | nil => rfl
    | cons a rest ih =>
        rw [List.flatMap_cons, encounters, List.singleton_append, holders, ih]
        rfl
  rw [collect_eq, hholders]
  rfl

namespace Document

variable {doc : Document}

/-! ### The order of a document -/

/-- The annotations of a document **are strictly ordered** by their comparison. -/
structure IsStrictlyOrdered (doc : Document) : Prop where
  irrefl : ∀ a ∈ doc.annotations, ¬ a.compare a = .lt
  trans : ∀ a ∈ doc.annotations, ∀ b ∈ doc.annotations, ∀ c ∈ doc.annotations,
    a.compare b = .lt → b.compare c = .lt → a.compare c = .lt
  total : ∀ a ∈ doc.annotations, ∀ b ∈ doc.annotations,
    a.compare b = .lt ∨ a = b ∨ b.compare a = .lt

namespace WellFormed

/-- The order of the annotations of a well-formed document is a strict total one. -/
theorem isStrictlyOrdered (h : doc.WellFormed) : doc.IsStrictlyOrdered where
  irrefl a _ haa := by
    have hkey : a.key < a.key := Annotation.compare_eq_lt_iff.mp haa
    exact lt_irrefl a.key hkey
  trans _ _ _ _ _ _ := Std.TransCmp.lt_trans
  total a ha b hb := by
    cases hab : a.compare b with
    | lt => exact .inl rfl
    | eq => exact .inr (.inl (h.eq_of_compare ha hb hab))
    | gt => exact .inr (.inr (Std.OrientedCmp.lt_of_gt hab))

/-- **Annotations put in order one by one are a set of keys**, read in the order of the keys. -/
theorem map_key_inOrder (h : doc.WellFormed) (has : ∀ a ∈ as, a ∈ doc.annotations) :
    (inOrder as).map Annotation.key = (as.map Annotation.key).toFinset.sort := by
  have hsorted := pairwise_map_key (pairwise_inOrder as)
  have hset : ((inOrder as).map Annotation.key).toFinset = (as.map Annotation.key).toFinset := by
    ext k
    simp [h.mem_inOrder_iff has]
  have hnodup : ((inOrder as).map Annotation.key).Nodup := hsorted.imp ne_of_lt
  rw [← hset, (List.toFinset_sort (· ≤ ·) hnodup).mpr (hsorted.imp le_of_lt)]

end WellFormed

/-! ### Selecting by type -/

/-- A selection has the annotations whose type the given one subsumes. -/
theorem mem_select_iff {ts : TypeSystem} {t : TypeId} {a : Annotation} :
    a ∈ doc.select ts t ↔ a ∈ doc.annotations ∧ ts.subsumes t a.type = true := by
  rw [select, List.mem_mergeSort, List.mem_filter]

namespace WellFormed

/-- Each annotation is there once, as each has a place of its own. -/
theorem nodup_annotations (h : doc.WellFormed) : doc.annotations.Nodup := by
  refine List.nodup_iff_getElem?_ne_getElem?.mpr fun i j hij hj heq => ?_
  have hi : doc.annotations[i]? = some doc.annotations[j] := by
    rw [heq, List.getElem?_eq_getElem hj]
  have hplaces := (h.id_eq i _ hi).symm.trans (h.id_eq j _ (List.getElem?_eq_getElem hj))
  exact absurd (AnnotationId.mk.inj hplaces) (Nat.ne_of_lt hij)

/-- **Selected annotations are strictly ascending.** -/
theorem pairwise_select (h : doc.WellFormed) (ts : TypeSystem) (t : TypeId) :
    (doc.select ts t).Pairwise fun a b => a.compare b = .lt := by
  have htrans (a b c : Annotation) (hab : (a.compare b).isLE = true)
      (hbc : (b.compare c).isLE = true) : (a.compare c).isLE = true :=
    Std.TransCmp.isLE_trans hab hbc
  have htotal (a b : Annotation) : ((a.compare b).isLE || (b.compare a).isLE) = true := by
    have hswap : b.compare a = (a.compare b).swap := Std.OrientedCmp.eq_swap
    rw [hswap]
    cases a.compare b <;> rfl
  have hsorted : (doc.select ts t).Pairwise fun a b => (a.compare b).isLE = true :=
    List.pairwise_mergeSort htrans htotal _
  have hnodup : (doc.select ts t).Nodup :=
    List.nodup_mergeSort.mpr (h.nodup_annotations.filter _)
  -- of two that stand at different places of a sorted list, the first is less unless they are alike
  refine (hsorted.and hnodup).imp_of_mem fun {a b} ha hb hab => ?_
  obtain ⟨hle, hne⟩ := hab
  have ha := (mem_select_iff.mp ha).1
  have hb := (mem_select_iff.mp hb).1
  cases hcompare : a.compare b with
  | lt => rfl
  | eq => exact absurd (h.eq_of_compare ha hb hcompare) hne
  | gt => exact absurd hle (by rw [hcompare]; decide)

/-- **Sorting them is putting them in order one by one.** -/
theorem select_eq_inOrder (h : doc.WellFormed) (ts : TypeSystem) (t : TypeId) :
    doc.select ts t = inOrder (doc.annotations.filter fun a => ts.subsumes t a.type) := by
  have hannotations : ∀ a ∈ doc.annotations.filter fun a => ts.subsumes t a.type,
      a ∈ doc.annotations := fun a ha => (List.mem_filter.mp ha).1
  refine eq_of_ascending (h.pairwise_select ts t) (pairwise_inOrder _) fun a => ?_
  rw [mem_select_iff, h.mem_inOrder_iff hannotations, List.mem_filter]

/-- Roots that are the places of selected annotations, in any order and any number of times, lead to
the selected annotations. -/
theorem mem_filterMap_find?_iff (h : doc.WellFormed) {ts : TypeSystem} {t : TypeId}
    {roots : List AnnotationId}
    (hroots : ∀ id, id ∈ roots ↔ ∃ a ∈ doc.select ts t, a.id = id) (a : Annotation) :
    a ∈ roots.filterMap doc.find? ↔ a ∈ doc.select ts t := by
  rw [List.mem_filterMap]
  constructor
  · rintro ⟨id, hid, hfind⟩
    obtain ⟨b, hb, rfl⟩ := (hroots id).mp hid
    rw [h.find?_id (mem_select_iff.mp hb).1] at hfind
    exact Option.some.inj hfind ▸ hb
  · intro ha
    exact ⟨a.id, (hroots _).mpr ⟨a, ha, rfl⟩, h.find?_id (mem_select_iff.mp ha).1⟩

end WellFormed

/-- **There is one canonical order.** In every document that changes make, the annotations are
strictly ordered by their keys. For every type system that is declared and every type, those are
selected that have the type or one from which steps to the type above lead to it, each once and
ascending; and collecting along the empty path from their places, in whatever order and with
whatever repetitions, gives the same annotations in the same order, which is also the one in which a
set holds their keys. -/
theorem select_canonical (ds : List Declaration) (text : String) (cs : List Change) (t : TypeId) :
    (∀ a b : Annotation, a.compare b = .lt ↔ a.key < b.key) ∧
    (changed text cs).IsStrictlyOrdered ∧
    (∀ a, a ∈ (changed text cs).select (.declared ds) t ↔ a ∈ (changed text cs).annotations ∧
      Relation.ReflTransGen (fun u p => (TypeSystem.declared ds).parent? u = some p) a.type t) ∧
    ((changed text cs).select (.declared ds) t).Pairwise (fun a b => a.compare b = .lt) ∧
    ∀ roots : List AnnotationId,
      (∀ id, id ∈ roots ↔ ∃ a ∈ (changed text cs).select (.declared ds) t, a.id = id) →
        collect (.declared ds) (changed text cs) roots [] =
          .ok ((changed text cs).select (.declared ds) t) ∧
        ((roots.filterMap (changed text cs).find?).map Annotation.key).toFinset.sort =
          ((changed text cs).select (.declared ds) t).map Annotation.key := by
  have hwf := wellFormed_changed text cs
  have hts := TypeSystem.hierarchical_declared ds
  have hascending := hwf.pairwise_select (.declared ds) t
  refine ⟨fun a b => Annotation.compare_eq_lt_iff, hwf.isStrictlyOrdered, fun a => ?_, hascending,
    fun roots hroots => ?_⟩
  · rw [mem_select_iff, hts.subsumes_iff_reaches]
  · have hmem := hwf.mem_filterMap_find?_iff hroots
    have hannotations : ∀ a ∈ roots.filterMap (changed text cs).find?,
        a ∈ (changed text cs).annotations := fun a ha => (mem_select_iff.mp ((hmem a).mp ha)).1
    have horder : inOrder (roots.filterMap (changed text cs).find?) =
        (changed text cs).select (.declared ds) t :=
      eq_of_ascending (pairwise_inOrder _) hascending fun a =>
        (hwf.mem_inOrder_iff hannotations).trans (hmem a)
    rw [collect_nil, ← hwf.map_key_inOrder hannotations, horder]
    exact ⟨rfl, rfl⟩

end Document

/-- A text with annotations of which several have the same span, and two of these the same type. -/
def Sample.alike : Document :=
  .changed "Ann met her" [.annotate ⟨2⟩ 8 11, .annotate ⟨1⟩ 0 3, .annotate ⟨2⟩ 0 3,
    .annotate ⟨0⟩ 0 3, .annotate ⟨1⟩ 0 3]

/-- Of the mentions of the same span those of the type itself come first, and of these the one that
was added first; from their places in another order they are collected in this one. -/
theorem Document.select_canonical_alike :
    (∀ id, id ∈ [⟨4⟩, ⟨0⟩, ⟨2⟩, ⟨4⟩, ⟨1⟩, ⟨0⟩] ↔
      ∃ a ∈ Sample.alike.select (.declared Sample.mentions) ⟨1⟩, a.id = id) ∧
    collect (.declared Sample.mentions) Sample.alike [⟨4⟩, ⟨0⟩, ⟨2⟩, ⟨4⟩, ⟨1⟩, ⟨0⟩] [] =
      .ok (Sample.alike.select (.declared Sample.mentions) ⟨1⟩) ∧
    (Sample.alike.select (.declared Sample.mentions) ⟨1⟩).map Annotation.id =
      [⟨1⟩, ⟨4⟩, ⟨2⟩, ⟨0⟩] := by
  have hids : (Sample.alike.select (.declared Sample.mentions) ⟨1⟩).map Annotation.id =
      [⟨1⟩, ⟨4⟩, ⟨2⟩, ⟨0⟩] := by
    have hwf : Sample.alike.WellFormed := wellFormed_changed _ _
    rw [hwf.select_eq_inOrder]
    decide +kernel
  have hroots (id : AnnotationId) : id ∈ [⟨4⟩, ⟨0⟩, ⟨2⟩, ⟨4⟩, ⟨1⟩, ⟨0⟩] ↔
      ∃ a ∈ Sample.alike.select (.declared Sample.mentions) ⟨1⟩, a.id = id := by
    rw [← List.mem_map, hids]
    simp only [List.mem_cons, List.not_mem_nil, or_false]
    tauto
  obtain ⟨-, -, -, -, hcollect⟩ := select_canonical Sample.mentions "Ann met her" _ ⟨1⟩
  exact ⟨hroots, (hcollect _ hroots).1, hids⟩

end AnnotatedText
