import AnnotatedText.TypeSystem

/-!
# Lineages

The lineage of a type leads from the type up to the root. The places of types decrease on the way
up, so no type comes twice, and the lineage of a type above is what is left of the lineage of a type
below: being above is a partial order on all types, declared ones or not.

What a type sees of a name is the first feature on its lineage. When a type above sees a feature, a
type below sees one of the same name too, declared on the stretch of its lineage that ends with the
domain of the feature above.

## Main results

* `TypeSystem.lineage_suffix`: the lineage of a type above ends the lineage of a type below.
* `TypeSystem.exists_featureNamed?_of_subsumes`: what a type sees when a type above sees a feature.
* `TypeSystem.Unshadowed.featureNamed?_of_subsumes`: where no feature is shadowed, it sees the same.
-/

namespace AnnotatedText.TypeSystem

variable {ts : TypeSystem}

/-! ### The way up -/

/-- A lineage begins with its type. -/
theorem exists_lineage_eq_cons (ts : TypeSystem) (t : TypeId) :
    ∃ above, ts.lineage t = t :: above := by
  fun_cases ts.lineage t with
  | case1 hp => exact ⟨[], rfl⟩
  | case2 p hp hlt => exact ⟨ts.lineage p, rfl⟩
  | case3 p hp hlt => exact ⟨[], rfl⟩

/-- A type belongs to its own lineage. -/
theorem self_mem_lineage (ts : TypeSystem) (t : TypeId) : t ∈ ts.lineage t := by
  obtain ⟨above, h⟩ := ts.exists_lineage_eq_cons t
  exact h ▸ List.mem_cons_self

/-- The lineage of a type was declared no later than the type. -/
theorem index_le_of_mem_lineage {t u : TypeId} (h : u ∈ ts.lineage t) : u.index ≤ t.index := by
  fun_induction ts.lineage t with
  | case1 t hp => simp_all
  | case2 t p hp hlt ih =>
      rcases List.mem_cons.mp h with rfl | h
      · exact Nat.le_refl _
      · have := ih h
        omega
  | case3 t p hp hlt => simp_all

/-- Places decrease on the way up. -/
theorem lineage_decreasing (ts : TypeSystem) (t : TypeId) :
    (ts.lineage t).Pairwise fun u v => v.index < u.index := by
  fun_induction ts.lineage t with
  | case1 t hp => exact List.pairwise_singleton _ _
  | case2 t p hp hlt ih =>
      refine List.pairwise_cons.mpr ⟨fun u hu => ?_, ih⟩
      have := index_le_of_mem_lineage hu
      omega
  | case3 t p hp hlt => exact List.pairwise_singleton _ _

/-- **The lineage of a type above** ends the lineage of a type below. -/
theorem lineage_suffix {sup sub : TypeId} (h : sup ∈ ts.lineage sub) :
    ts.lineage sup <:+ ts.lineage sub := by
  by_cases heq : sup = sub
  · exact heq ▸ List.suffix_refl _
  · fun_induction ts.lineage sub with
    | case1 t hp => exact absurd (List.mem_singleton.mp h) heq
    | case2 t p hp hlt ih =>
        refine List.IsSuffix.trans ?_ (List.suffix_cons t (ts.lineage p))
        by_cases hsup : sup = p
        · exact hsup ▸ List.suffix_refl _
        · exact ih ((List.mem_cons.mp h).resolve_left heq) hsup
    | case3 t p hp hlt => exact absurd (List.mem_singleton.mp h) heq

/-- The lineage of a type depends on the parents of that type and of those before it. -/
theorem lineage_congr {more : TypeSystem} {t : TypeId}
    (h : ∀ u : TypeId, u.index ≤ t.index → more.parent? u = ts.parent? u) :
    more.lineage t = ts.lineage t := by
  fun_induction ts.lineage t with
  | case1 t hp => rw [lineage, h t (Nat.le_refl _), hp]
  | case2 t p hp hlt ih =>
      rw [lineage, h t (Nat.le_refl _), hp]
      simp only [hlt, if_true, ih fun u hu => h u (by omega)]
  | case3 t p hp hlt =>
      rw [lineage, h t (Nat.le_refl _), hp]
      simp only [hlt, if_false]

/-- A type subsumes those to whose lineage it belongs. -/
theorem subsumes_iff {sup sub : TypeId} : ts.subsumes sup sub = true ↔ sup ∈ ts.lineage sub := by
  simp [subsumes]

/-- What subsumes a type depends on the parents up to it only. -/
theorem subsumes_congr {more : TypeSystem} {sub : TypeId}
    (h : ∀ u : TypeId, u.index ≤ sub.index → more.parent? u = ts.parent? u) (sup : TypeId) :
    more.subsumes sup sub = ts.subsumes sup sub :=
  congrArg (·.contains sup) (lineage_congr h)

@[simp] theorem subsumes_refl (ts : TypeSystem) (t : TypeId) : ts.subsumes t t = true :=
  subsumes_iff.mpr (ts.self_mem_lineage t)

/-- What subsumes a type subsumes what that subsumes. -/
theorem subsumes_trans {a b c : TypeId} (hab : ts.subsumes a b = true)
    (hbc : ts.subsumes b c = true) : ts.subsumes a c = true :=
  subsumes_iff.mpr ((lineage_suffix (subsumes_iff.mp hbc)).subset (subsumes_iff.mp hab))

/-! ### Features on the way up -/

/-- A feature of a type itself is declared on it with its name. -/
theorem ownFeature?_eq_some {t : TypeId} {name : String} {f : Feature}
    (h : ts.ownFeature? t name = some f) : f ∈ ts.features ∧ f.domain = t ∧ f.name = name := by
  have hf := List.find?_some h
  simp only [Bool.and_eq_true, beq_iff_eq] at hf
  exact ⟨List.mem_of_find?_eq_some h, hf⟩

/-- A type itself has a feature if and only if one is declared on it with the name. -/
theorem isSome_ownFeature?_iff {t : TypeId} {name : String} :
    (ts.ownFeature? t name).isSome = true ↔ ∃ f ∈ ts.features, f.domain = t ∧ f.name = name := by
  simp [ownFeature?]

/-- A feature of the type itself is found first. -/
theorem featureNamed?_of_ownFeature? {t : TypeId} {name : String} {f : Feature}
    (h : ts.ownFeature? t name = some f) : ts.featureNamed? t name = some f := by
  obtain ⟨above, hlineage⟩ := ts.exists_lineage_eq_cons t
  rw [featureNamed?, hlineage, List.findSome?_cons, h]

/-- What a type sees is declared on its lineage. -/
theorem featureNamed?_eq_some {t : TypeId} {name : String} {f : Feature}
    (h : ts.featureNamed? t name = some f) :
    f ∈ ts.features ∧ f.name = name ∧ ts.subsumes f.domain t = true ∧
      ts.ownFeature? f.domain name = some f := by
  obtain ⟨u, hu, hf⟩ := List.exists_of_findSome?_eq_some h
  obtain ⟨hmem, rfl, hname⟩ := ownFeature?_eq_some hf
  exact ⟨hmem, hname, subsumes_iff.mpr hu, hf⟩

/-- **What a type sees when a type above sees a feature**: a feature of the same name, declared on a
type that stands below the domain of the other or is the same. -/
theorem exists_featureNamed?_of_subsumes {sup sub : TypeId} (h : ts.subsumes sup sub = true)
    {name : String} {f : Feature} (hf : ts.featureNamed? sup name = some f) :
    ∃ g, ts.featureNamed? sub name = some g ∧ ts.subsumes f.domain g.domain = true := by
  obtain ⟨below, hbelow⟩ := lineage_suffix (subsumes_iff.mp h)
  rw [featureNamed?, ← hbelow, List.findSome?_append]
  cases hg : below.findSome? (ts.ownFeature? · name) with
  | none => exact ⟨f, hf, ts.subsumes_refl _⟩
  | some g =>
      refine ⟨g, rfl, subsumes_trans (featureNamed?_eq_some hf).2.2.1 (subsumes_iff.mpr ?_)⟩
      obtain ⟨u, hu, hown⟩ := List.exists_of_findSome?_eq_some hg
      obtain ⟨-, rfl, -⟩ := ownFeature?_eq_some hown
      -- the lineages of both types end the same lineage, and that of `sup` is not the longer one
      have hmem : g.domain ∈ ts.lineage sub := hbelow ▸ List.mem_append_left _ hu
      have hle : sup.index < g.domain.index := by
        have hdecreasing := hbelow ▸ ts.lineage_decreasing sub
        exact (List.pairwise_append.mp hdecreasing).2.2 _ hu _ (ts.self_mem_lineage sup)
      rcases List.suffix_or_suffix_of_suffix (lineage_suffix hmem) ⟨below, hbelow⟩ with hs | hs
      · have := index_le_of_mem_lineage (hs.subset (ts.self_mem_lineage _))
        omega
      · exact hs.subset (ts.self_mem_lineage sup)

/-- No type declares a name that a type above it declares as well. -/
def Unshadowed (ts : TypeSystem) : Prop :=
  ∀ f ∈ ts.features, ∀ g ∈ ts.features, f.name = g.name →
    ts.subsumes f.domain g.domain = true → f.domain = g.domain

instance (ts : TypeSystem) : Decidable ts.Unshadowed :=
  inferInstanceAs <| Decidable <| ∀ f ∈ ts.features, ∀ g ∈ ts.features, f.name = g.name →
    ts.subsumes f.domain g.domain = true → f.domain = g.domain

/-- **Where no feature is shadowed, what a type sees is seen by the types below.** -/
theorem Unshadowed.featureNamed?_of_subsumes (hs : ts.Unshadowed) {sup sub : TypeId}
    (hsub : ts.subsumes sup sub = true) {name : String} {f : Feature}
    (hf : ts.featureNamed? sup name = some f) : ts.featureNamed? sub name = some f := by
  obtain ⟨g, hg, hdomain⟩ := exists_featureNamed?_of_subsumes hsub hf
  obtain ⟨hfmem, hfname, -, hfown⟩ := featureNamed?_eq_some hf
  obtain ⟨hgmem, hgname, -, hgown⟩ := featureNamed?_eq_some hg
  have heq := hs f hfmem g hgmem (hfname.trans hgname.symm) hdomain
  rw [heq] at hfown
  exact hg.trans (hgown.symm.trans hfown)

end AnnotatedText.TypeSystem
